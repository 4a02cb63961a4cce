import SymbolSets.Bisection
import SymbolSets.Capacity
import SymbolSets.Decimal.Basic
import SymbolSets.Decimal.Numeral
import SymbolSets.Digest
import SymbolSets.Double.Basic
import SymbolSets.Double.Shortest
import SymbolSets.Enumerated
import SymbolSets.Fault
import SymbolSets.IntSet
import SymbolSets.Interval.Basic
import SymbolSets.Interval.Position
import SymbolSets.Interval.Span
import SymbolSets.Progression
import SymbolSets.Runs.Basic
import SymbolSets.Runs.Digest
import SymbolSets.Runs.Erase
import SymbolSets.Runs.Insert
import SymbolSets.Runs.Search
import SymbolSets.Runs.Spans
import SymbolSets.Runs.Spelled
import SymbolSets.Runs.Text
import SymbolSets.Runs.Walk
import SymbolSets.Session.Derivation
import SymbolSets.Session.Mutation
import SymbolSets.Session.Operand
import SymbolSets.Session.Query
import SymbolSets.Session.Step
import SymbolSets.Store.Basic
import SymbolSets.Store.Implementation
import SymbolSets.Store.Reading
import SymbolSets.Store.Text
import SymbolSets.Symbols
import SymbolSets.Text.Basic
import SymbolSets.Text.Capitals
import SymbolSets.Text.Quoted
import SymbolSets.Unicode.Lowercase
import SymbolSets.Unicode.Printable
import SymbolSets.Unicode.Progressions
import SymbolSets.Unicode.Titlecase
import SymbolSets.Unicode.Uppercase
import SymbolSets.Value.Basic
import SymbolSets.Value.Digest
import SymbolSets.Value.Operator
import SymbolSets.Value.Order
import SymbolSets.Vocabulary
import SymbolSets.Proofs.Interval.Position
import SymbolSets.Proofs.Runs.Canonical
import SymbolSets.Proofs.Runs.Update
import SymbolSets.Proofs.Runs.Walk
import SymbolSets.Proofs.Runs.Length
import SymbolSets.Proofs.Runs.Spelled
import SymbolSets.Proofs.Session.Change
import SymbolSets.Proofs.Session.Outcome
import SymbolSets.Proofs.Session.Making
import SymbolSets.Proofs.Session.Canonical
import SymbolSets.Proofs.Session.Call
import SymbolSets.Proofs.Session.History
import SymbolSets.Proofs.Runs.Size
import SymbolSets.Proofs.Session.Algebra
import SymbolSets.Proofs.Session.Frame
import SymbolSets.Proofs.Session.Permanence
import SymbolSets.Proofs.Session.Freshness
import SymbolSets.Proofs.Session.Rejection
import SymbolSets.Proofs.Session.Atomicity
import SymbolSets.Proofs.Digest.Bytes
import SymbolSets.Proofs.Digest.Unbounded
import SymbolSets.Proofs.Store.Listing
import SymbolSets.Proofs.Session.Agreement
import SymbolSets.Proofs.Session.Faults
import SymbolSets.Proofs.Session.Records
import SymbolSets.Proofs.Session.Log
import SymbolSets.Proofs.Bisection
import SymbolSets.Proofs.Enumerated.Order
import SymbolSets.Proofs.Enumerated.Ordered
import SymbolSets.Proofs.Session.Ordered
import SymbolSets.Proofs.Session.Integers
import SymbolSets.Proofs.IntSet
import SymbolSets.Proofs.Session.Implementation
import SymbolSets.Proofs.Session.Fold
import SymbolSets.Proofs.Runs.InPlace
import SymbolSets.Proofs.Session.Walks
import SymbolSets.Proofs.Session.Complement
import SymbolSets.Proofs.Runs.Text
import SymbolSets.Proofs.Store.Text
import SymbolSets.Proofs.Session.Text
import SymbolSets.Proofs.Digest.Difference
import SymbolSets.Proofs.Runs.Search
import SymbolSets.Proofs.Runs.Position
import SymbolSets.Proofs.Session.Membership
import SymbolSets.Proofs.Session.Enumeration
import SymbolSets.Proofs.Runs.Cursors
import SymbolSets.Proofs.Session.Fragmentation
import SymbolSets.Proofs.Session.Pieces
import SymbolSets.Proofs.Store.Names
import SymbolSets.Proofs.Session.Names
import SymbolSets.Proofs.Session.Classification
