import PluginKit.Value.Fault

/-!
# Fetching JSON

A document is fetched by a client, if one is installed. Whatever goes wrong on the way, and any answer but a
good one, gives nothing; only the lack of a client is a fault.
-/

namespace PluginKit

inductive WebReply where
  | failed
  /-- An answer with a status, and the document if it has a readable one. -/
  | answered (status : Int) (document : Option Value)

def goodStatus : Int := 200

def WebReply.document : WebReply → Value
  | failed => .null
  | answered status document => if status = goodStatus then document.getD .null else .null

structure WebRequest where
  address : Value
  patience : Value

def usualPatience : Value := .int 10

def fetch (client : Option (WebRequest → WebReply)) (request : WebRequest) : Outcome Value × List WebRequest :=
  match client with
  | none => (.error (.noLibrary "请先安装 aiohttp：pip install aiohttp"), [])
  | some send => (.ok (send request).document, [request])

end PluginKit
