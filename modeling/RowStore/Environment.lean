import RowStore.Block.Codec
import RowStore.Bytes.Order
import RowStore.Calendar.Instant
import RowStore.Checksum.Xxh3

/-! What the program runs with: the byte order of its machine, the checksum of its files, and the texts
of dates and instants.
-/

namespace RowStore

instance : Host := ⟨.little⟩

instance : Checksum := ⟨Xxh3.checksum⟩

instance : CalendarText := ⟨Text.readDate?, Text.readInstant?, Date.text, Instant.text⟩

end RowStore
