import PluginKit.Value.Fault

/-!
# Files and their contents

A file holds a text, or bytes that are no UTF-8, or it is an archive with named contents. Reading a file as
text folds its line ends and refuses bytes that are no UTF-8.
-/

namespace PluginKit.Files

inductive Content where
  | text (s : Text)
  | bytes (b : List UInt8)
  | archive (members : List (Text × Content))

inductive Entry where
  | directory
  | file (content : Content)

def Entry.isDirectory : Entry → Bool
  | directory => true
  | file _ => false

/-- The text of a file with line ends folded. An archive is not meant to be read as text; to whoever does it
all the same, it looks like bytes that begin no character. -/
def Content.read : Content → Outcome Text
  | .text s => .ok (Text.foldNewlines s)
  | .bytes b =>
    match Text.decodeUtf8 b with
    | .ok s => .ok (Text.foldNewlines s)
    | .error e => .error (.decode e)
  | .archive _ => .error (.decode ⟨0x80, 0, 1, .start⟩)

def quotedPath (path : Text) : Text := Text.quoted path

def readEntry (path : Text) : Option Entry → Outcome Text
  | none => .error (.file (.notFound (quotedPath path)))
  | some .directory => .error (.file (.isDirectory (quotedPath path)))
  | some (.file content) => content.read

end PluginKit.Files
