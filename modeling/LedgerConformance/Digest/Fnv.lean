/-!
The FNV-1a hash of a sequence of bytes, in 64 bits.
-/

namespace LedgerConformance.Fnv

def offset : UInt64 := 0xcbf29ce484222325

def prime : UInt64 := 0x100000001b3

def hash (bytes : ByteArray) : UInt64 :=
  bytes.data.foldl (fun h b => (h ^^^ b.toUInt64) * prime) offset

end LedgerConformance.Fnv
