import RowFilter.Proofs.Tables
import RowFilter.Schema.Document

/-!
# Schemas written and read again

A schema that was read is read back from the document it is written as.  Collections and the
fields of a collection are tables, so they may be written in any order: whatever is looked up
by name is the same.

* `Schema.NamesDistinct`: no two collections, and no two fields of a collection, have one name.
* `Schema.namesDistinct_of_ofJson?`: schemas that were read.
* `Schema.ofJson?_toJson`: what is written is read back.
* `Schema.Same`: schemas that differ in the order of their tables.
* `schema_survives_writing`: all of this for every schema that was read.
-/

namespace RowFilter

/-! ## Parts of a schema -/

theorem Json.texts?_written
    (names : List String) :
    texts? (.arr (names.map .str)) = some names :=
  mapM_written fun _ _ => rfl

theorem Json.optionalText?_ofText?
    (name : Option String) :
    optionalText? (some (ofText? name)) = some name := by
  cases name <;> rfl

theorem Flag.filterMap_ofName?_names
    (flags : List Flag) :
    (flags.map name).filterMap ofName? = flags := by
  simp [List.filterMap_map, ofName?_name]

/-- The names of the flags are read as the set that they were. -/
theorem Specials.ofJson?_toJson
    (s : Specials) :
    ofJson? s.toJson = some s := by
  have hnames : Json.texts? s.toJson = some (s.flags.map Flag.name) := by
    rw [← Json.texts?_written (s.flags.map Flag.name), List.map_map]
    rfl
  have hread : ofJson? s.toJson =
      (Json.texts? s.toJson).map fun names => ofFlags (names.filterMap Flag.ofName?) := rfl
  rw [hread, hnames, Option.map_some, Flag.filterMap_ofName?_names, ofFlags_flags]

theorem Field.ofJson?_toJson
    (f : Field) :
    ofJson? f.toJson = some f := by
  have hrecord : Json.record? ["type", "special"] f.toJson =
      some [some (.str f.type.schemaName), some f.specials.toJson] := by
    simp [toJson, Json.record?, Json.onlyMember?]
  simp [ofJson?, hrecord, Json.text?, Specials.ofJson?_toJson, FieldType.ofName_schemaName]

theorem Relation.ofJson?_toJson
    (r : Relation) :
    ofJson? r.toJson = some r := by
  have hrecord : Json.record? memberNames r.toJson =
      some [some (.str r.collection), some (.str r.field),
        some (Json.ofText? r.relatedCollection), some (Json.ofText? r.relatedField),
        some (Json.ofText? r.collectionField), some (.arr (r.allowed.map .str)),
        some (.str r.cardinality.name)] := by
    simp [toJson, memberNames, Json.record?, Json.onlyMember?]
  simp [ofJson?, hrecord, Json.text?, Json.optionalText?_ofText?, Json.texts?_written,
    Json.choice?, Cardinality.ofName?_name]

theorem Collection.ofJson?_toJson
    {c : Collection}
    (h : (c.fields.map Prod.fst).Nodup) :
    ofJson? c.toJson = some c := by
  have hrecord : Json.record? ["primary", "fields"] c.toJson =
      some [some (.str c.primary), some (.obj (c.fields.map fun f => (f.1, f.2.toJson)))] := by
    simp [toJson, Json.record?, Json.onlyMember?]
  have hfields := Json.table?_written h fun f _ => f.2.ofJson?_toJson
  simp [ofJson?, hrecord, Json.text?, hfields]

/-! ## Whole schemas -/

namespace Schema

/-- No two collections, and no two fields of a collection, have one name. -/
structure NamesDistinct (s : Schema) : Prop where
  collections : (s.collections.map Prod.fst).Nodup
  fields : ∀ c ∈ s.collections, (c.2.fields.map Prod.fst).Nodup

theorem ofJson?_toJson
    {s : Schema}
    (h : s.NamesDistinct) :
    ofJson? s.toJson = some s := by
  have hrecord : Json.record? ["collections", "relations"] s.toJson =
      some [some (.obj (s.collections.map fun c => (c.1, c.2.toJson))),
        some (.arr (s.relations.map Relation.toJson))] := by
    simp [toJson, Json.record?, Json.onlyMember?]
  have hcollections := Json.table?_written h.collections fun c hc =>
    Collection.ofJson?_toJson (h.fields c hc)
  have hrelations : relations? (.arr (s.relations.map Relation.toJson)) = some s.relations :=
    mapM_written fun r _ => r.ofJson?_toJson
  simp [ofJson?, hrecord, hcollections, hrelations]

end Schema

theorem Collection.nodup_of_ofJson?
    {j : Json} {c : Collection}
    (h : ofJson? j = some c) :
    (c.fields.map Prod.fst).Nodup := by
  unfold ofJson? at h
  split at h
  · obtain ⟨primary, -, h⟩ := Option.bind_eq_some_iff.1 h
    obtain ⟨fields, hfields, h⟩ := Option.bind_eq_some_iff.1 h
    cases h
    exact (Json.entries_of_table? hfields).1
  · cases h

/-- A schema that was read has distinct names. -/
theorem Schema.namesDistinct_of_ofJson?
    {j : Json} {s : Schema}
    (h : ofJson? j = some s) :
    s.NamesDistinct := by
  unfold ofJson? at h
  split at h
  · obtain ⟨collections, hcollections, h⟩ := Option.bind_eq_some_iff.1 h
    obtain rfl : collections = s.collections := by
      split at h
      · obtain ⟨relations, -, h⟩ := Option.bind_eq_some_iff.1 h
        cases h
        rfl
      · cases h
        rfl
    obtain ⟨hnames, hread⟩ := Json.entries_of_table? hcollections
    refine ⟨hnames, fun c hc => ?_⟩
    obtain ⟨v, hv⟩ := hread c hc
    exact Collection.nodup_of_ofJson? hv
  · cases h

/-! ## Tables in another order -/

/-- The same collection, with the fields in any order. -/
structure Collection.Same (c d : Collection) : Prop where
  primary : c.primary = d.primary
  fields : c.fields.Perm d.fields

namespace Schema

/-- The same schema, with the collections and their fields in any order. -/
structure Same (s t : Schema) : Prop where
  collections : ∃ table, s.collections.Perm table ∧ SameKeys Collection.Same table t.collections
  relations : s.relations = t.relations

variable {s t : Schema}

theorem Same.namesDistinct
    (hsame : s.Same t) (h : s.NamesDistinct) :
    t.NamesDistinct := by
  obtain ⟨table, hperm, hkeys⟩ := hsame.collections
  constructor
  · rw [← hkeys.keys_eq]
    exact (hperm.map Prod.fst).nodup_iff.1 h.collections
  · intro d hd
    obtain ⟨c, hc, -, hcd⟩ := hkeys.exists_of_mem hd
    exact (hcd.fields.map Prod.fst).nodup_iff.1 (h.fields c (hperm.mem_iff.2 hc))

theorem Same.collection?
    (hsame : s.Same t) (h : s.NamesDistinct) (name : String) :
    Option.Rel Collection.Same (s.collection? name) (t.collection? name) := by
  obtain ⟨table, hperm, hkeys⟩ := hsame.collections
  rw [Schema.collection?, lookup_eq_of_perm hperm h.collections]
  exact hkeys.lookup name

theorem Same.field?
    (hsame : s.Same t) (h : s.NamesDistinct) (collection field : String) :
    s.field? collection field = t.field? collection field := by
  have hdistinct : ∀ c, s.collection? collection = some c → (c.fields.map Prod.fst).Nodup :=
    fun c hc => h.fields _ ((lookup_eq_some_iff_mem h.collections).1 hc)
  have hcollection := hsame.collection? h collection
  rw [Schema.field?, Schema.field?]
  generalize s.collection? collection = c? at hdistinct hcollection ⊢
  generalize t.collection? collection = d? at hcollection ⊢
  cases hcollection with
  | none => rfl
  | some hcd => exact lookup_eq_of_perm hcd.fields (hdistinct _ rfl) field

end Schema

/-- **Schemas survive writing.**  A schema that was read from some document is read back from
the document it is written as, with its collections, primary keys, fields, types, flags and
relations.  The same holds if the collections and the fields of a collection are written in
another order: the collections with their primary keys and fields, the fields with their types
and flags, and the relations that are found by name are those of the schema. -/
theorem schema_survives_writing
    {j : Json} {s : Schema}
    (hread : Schema.ofJson? j = some s) :
    Schema.ofJson? s.toJson = some s ∧
      ∀ t, s.Same t →
        Schema.ofJson? t.toJson = some t ∧ s.relations = t.relations ∧
        (∀ name, Option.Rel Collection.Same (s.collection? name) (t.collection? name)) ∧
        (∀ collection field, s.field? collection field = t.field? collection field) ∧
        ∀ collection field, s.relation? collection field = t.relation? collection field := by
  have hnames := Schema.namesDistinct_of_ofJson? hread
  refine ⟨Schema.ofJson?_toJson hnames, fun t hsame => ?_⟩
  refine ⟨Schema.ofJson?_toJson (hsame.namesDistinct hnames), hsame.relations,
    hsame.collection? hnames, hsame.field? hnames, fun collection field => ?_⟩
  rw [Schema.relation?, Schema.relation?, hsame.relations]

/-- A schema with a type that is not known, names with blanks and capitals, a collection that is
written as an array and a relation without optional members. -/
def spottedOrders : Json :=
  .obj [
    ("collections", .obj [
      ("orders", .obj [("primary", .str "id"), ("fields", .obj [
        ("id", .obj [("type", .str " BIGinteger")]),
        ("spot", .obj [("type", .str "point"),
          ("special", .arr [.str "Conceal ", .str "bogus", .str "m2o", .str "conceal"])])])]),
      ("places", .arr [.str "key", .obj []])]),
    ("relations", .arr [.obj [("collection", .str "orders"), ("field", .str "spot"),
      ("related_collection", .str "places"), ("cardinality", .str "many-to-one")]])]

/-- The schema of `spottedOrders`. -/
def spottedSchema : Schema where
  collections := [
    ("orders", ⟨"id", [("id", ⟨.bigInteger, {}⟩),
      ("spot", ⟨.unknown, { manyToOne := true, conceal := true }⟩)]⟩),
    ("places", ⟨"key", []⟩)]
  relations := [⟨"orders", "spot", some "places", none, none, [], .manyToOne⟩]

/-- The same schema with its collections turned round. -/
def turnedSchema : Schema :=
  { spottedSchema with collections := spottedSchema.collections.reverse }

theorem schema_survives_writing_spottedOrders :
    Schema.ofJson? spottedOrders = some spottedSchema ∧
      Schema.ofJson? spottedSchema.toJson = some spottedSchema ∧
      Schema.ofJson? turnedSchema.toJson = some turnedSchema ∧
      turnedSchema.field? "orders" "spot" = spottedSchema.field? "orders" "spot" := by
  have hread : Schema.ofJson? spottedOrders = some spottedSchema := by decide +kernel
  have hsame : spottedSchema.Same turnedSchema :=
    ⟨⟨_, (List.reverse_perm _).symm, List.forall₂_same.2 fun _ _ => ⟨rfl, rfl, .refl _⟩⟩, rfl⟩
  obtain ⟨hback, hturned⟩ := schema_survives_writing hread
  obtain ⟨hback', -, -, hfield, -⟩ := hturned turnedSchema hsame
  exact ⟨hread, hback, hback', (hfield "orders" "spot").symm⟩

end RowFilter
