import RowFilter.Compilation.Basic
import RowFilter.Schema.Document
import RowFilter.Value.Tagged
import RowFilter.Proofs.Binding
import RowFilter.Proofs.Attempts
import RowFilter.Proofs.Verbatim
import RowFilter.Proofs.Dialects
import RowFilter.Proofs.Skeletons
import RowFilter.Proofs.Inquiries
import RowFilter.Proofs.Accounts
import RowFilter.Proofs.Numbering
import RowFilter.Proofs.Frames
import RowFilter.Proofs.Discovery
import RowFilter.Proofs.Choices
import RowFilter.Proofs.Folding
import RowFilter.Proofs.OnePass
import RowFilter.Proofs.Closures
import RowFilter.Proofs.SiblingFolding
import RowFilter.Proofs.Tables
import RowFilter.Proofs.Meaning
import RowFilter.Proofs.Lookups
import RowFilter.Proofs.Likeness
import RowFilter.Proofs.Noninterference
import RowFilter.Proofs.Contexts
import RowFilter.Proofs.Segments
import RowFilter.Proofs.Freshness
import RowFilter.Proofs.Places
import RowFilter.Proofs.Emission
import RowFilter.Proofs.Acceptance
import RowFilter.Proofs.Points
import RowFilter.Proofs.Scopes
import RowFilter.Proofs.PermissionCases
import RowFilter.Proofs.Concealment
import RowFilter.Proofs.Decoding
import RowFilter.Proofs.Terms
import RowFilter.Proofs.Legibility
import RowFilter.Proofs.Unambiguity
import RowFilter.Proofs.Routes
import RowFilter.Proofs.PlannedJoins
import RowFilter.Proofs.TwinPlans
import RowFilter.Proofs.Counterparts
import RowFilter.Proofs.Fitness
import RowFilter.Proofs.PathReading
import RowFilter.Proofs.Evaluation
import RowFilter.Proofs.Quantifiers
import RowFilter.Proofs.SharedElements
import RowFilter.Proofs.Verdicts
import RowFilter.Proofs.Refusals
import RowFilter.Proofs.Outlooks
import RowFilter.Proofs.Reordering
import RowFilter.Proofs.PathRecovery
import RowFilter.Proofs.KeyGrammar
import RowFilter.Proofs.PathsToMany
import RowFilter.Proofs.Requests
import RowFilter.Proofs.DocumentLabels
import RowFilter.Proofs.StringLiterals
import RowFilter.Proofs.BoundValues
import RowFilter.Proofs.DottedKeys
import RowFilter.Proofs.OperatorMembers
import RowFilter.Proofs.Casts
import RowFilter.Proofs.Selections
import RowFilter.Proofs.IdleTests
import RowFilter.Proofs.DepthLimits
import RowFilter.Proofs.Wildcards
import RowFilter.Proofs.SchemaDocuments
import RowFilter.Proofs.CommaLists
