import RangeAlgebra.Cut.Order
import RangeAlgebra.RangeSet.Traversal
import RangeAlgebra.Discrete.Cursor
import RangeAlgebra.Element.Dynamic
import RangeAlgebra.Journal
import RangeAlgebra.Proofs.Canonical
import RangeAlgebra.Proofs.Canonical.Derived
import RangeAlgebra.Proofs.Canonical.Neighbours
import RangeAlgebra.Proofs.Index.Filing
import RangeAlgebra.Proofs.Search
import RangeAlgebra.Proofs.Search.Probes
import RangeAlgebra.Proofs.Search.Scan
import RangeAlgebra.Proofs.Index.Changes
import RangeAlgebra.Proofs.Index.Runs
import RangeAlgebra.Proofs.Listing
import RangeAlgebra.Proofs.Listing.Gaps
import RangeAlgebra.Proofs.Listing.Window
import RangeAlgebra.Proofs.Listing.Lookup
import RangeAlgebra.Proofs.Set.Lists
import RangeAlgebra.Proofs.Set.Restriction
import RangeAlgebra.Proofs.Set.Algebra
import RangeAlgebra.Proofs.Set.Building
import RangeAlgebra.Proofs.Set.Laws
import RangeAlgebra.Proofs.Set.Views
import RangeAlgebra.Proofs.Set.Queries
import RangeAlgebra.Proofs.Set.Equality
import RangeAlgebra.Proofs.Builder.Calls
import RangeAlgebra.Element.Order
import RangeAlgebra.Proofs.Discrete.Integers
import RangeAlgebra.Proofs.Discrete.Walk
import RangeAlgebra.Proofs.Discrete.Stepping
import RangeAlgebra.Proofs.Discrete.CanonicalCuts
import RangeAlgebra.Proofs.Discrete.Counting
import RangeAlgebra.Proofs.Discrete.Enumeration
import RangeAlgebra.Proofs.Discrete.Refusal
import RangeAlgebra.Proofs.Set.Relations
import RangeAlgebra.Proofs.Set.SingleRanges
import RangeAlgebra.Proofs.Set.Inclusion
import RangeAlgebra.Proofs.Discrete.Algebra
import RangeAlgebra.Proofs.Discrete.Restriction
import RangeAlgebra.Proofs.Builder.Copying
import RangeAlgebra.Proofs.Json.Decoding
import RangeAlgebra.Proofs.Json.RoundTrip
import RangeAlgebra.Proofs.Set.Instances
import RangeAlgebra.Proofs.Checked.Search
import RangeAlgebra.Proofs.Checked.Reading
import RangeAlgebra.Proofs.Checked.Index
import RangeAlgebra.Proofs.Checked.Queries
import RangeAlgebra.Proofs.Checked.Sets
import RangeAlgebra.Proofs.Checked.Algebra
import RangeAlgebra.Proofs.Checked.Operations
import RangeAlgebra.Proofs.Coverage.Lattice
import RangeAlgebra.Proofs.Discrete.NormalForm
import RangeAlgebra.Proofs.Set.Traversing
import RangeAlgebra.Proofs.Builder.Refused
import RangeAlgebra.Proofs.Coverage.Order
import RangeAlgebra.Proofs.Text.Legible
import RangeAlgebra.Proofs.Text.Quoting
import RangeAlgebra.Proofs.Text.Notation
