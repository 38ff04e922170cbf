import PluginKit.Text.Utf8

/-!
# The bytes of archives

An archive is a ZIP file whose members are stored as they are. Every member has a header in front of its bytes
and another one in the directory at the end, which says where the first header is.
-/

namespace PluginKit.Archive

def littleEndian : Nat → Nat → List UInt8
  | 0, _ => []
  | width + 1, n => UInt8.ofNat (n % 256) :: littleEndian width (n / 256)

/-- One bit of the checksum: the register is divided by the generator polynomial. -/
def checksumBit (r : UInt32) : UInt32 :=
  if r &&& 1 = 1 then (r >>> 1) ^^^ 0xedb88320 else r >>> 1

def checksumByte (r : UInt32) (b : UInt8) : UInt32 :=
  Nat.repeat checksumBit 8 (r ^^^ b.toUInt32)

def checksum (bytes : List UInt8) : UInt32 := bytes.foldl checksumByte 0xffffffff ^^^ 0xffffffff

structure Member where
  name : Text
  bytes : List UInt8

namespace Member

def nameBytes (m : Member) : List UInt8 := Text.encodeUtf8 m.name

/-- What both headers of a member say: how to read it, when it was changed, its checksum and its sizes. The
name is in UTF-8, and the date is the first one there is. -/
def facts (m : Member) : List UInt8 :=
  littleEndian 2 20 ++ littleEndian 2 0x800 ++ littleEndian 2 0 ++ littleEndian 2 0 ++ littleEndian 2 0x21 ++
    littleEndian 4 (checksum m.bytes).toNat ++ littleEndian 4 m.bytes.length ++
    littleEndian 4 m.bytes.length ++ littleEndian 2 m.nameBytes.length

def record (m : Member) : List UInt8 :=
  littleEndian 4 0x04034b50 ++ m.facts ++ littleEndian 2 0 ++ m.nameBytes ++ m.bytes

def directoryEntry (offset : Nat) (m : Member) : List UInt8 :=
  littleEndian 4 0x02014b50 ++ littleEndian 2 20 ++ m.facts ++ littleEndian 2 0 ++ littleEndian 2 0 ++
    littleEndian 2 0 ++ littleEndian 2 0 ++ littleEndian 4 0 ++ littleEndian 4 offset ++ m.nameBytes

end Member

def directory (offset : Nat) : List Member → List UInt8
  | [] => []
  | m :: rest => m.directoryEntry offset ++ directory (offset + m.record.length) rest

def encode (members : List Member) : List UInt8 :=
  let records := members.flatMap Member.record
  let entries := directory 0 members
  records ++ entries ++ littleEndian 4 0x06054b50 ++ littleEndian 2 0 ++ littleEndian 2 0 ++
    littleEndian 2 members.length ++ littleEndian 2 members.length ++ littleEndian 4 entries.length ++
    littleEndian 4 records.length ++ littleEndian 2 0

end PluginKit.Archive
