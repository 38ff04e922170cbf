import PluginKit.Check.Report
import PluginKit.Text.Number
import PluginKit.Value.Access
import PluginKit.Value.Display

/-!
# Checking manifests

A manifest has fields that it must have, fields that it should have, categories from a fixed list, and the
versions of the host that it works with.
-/

namespace PluginKit.Check

open Value (str)

def requiredFields : List Text := ["manifest_version", "name", "version", "description"]

def recommendedFields : List Text := ["license", "keywords", "homepage_url", "repository_url"]

def categories : List Text :=
  ["Group Management", "Entertainment & Interaction", "Utility Tools", "Content Generation", "Multimedia",
    "External Integration", "Data Analysis & Insights", "Other"]

def shownLength : Nat := 30

def shown : Value → Outcome Text
  | .str s => .ok (if shownLength < s.length then s.take shownLength ++ "..." else s)
  | v => v.display

/-- The value of a field, if the field is there and not empty. -/
def filled? (manifest : Value) (field : Text) : Outcome (Option Value) := do
  if ← manifest.holds field then
    let v ← manifest.item field
    return if v.truthy then some v else none
  else return none

def checkRequired (manifest : Value) (field : Text) : CheckM Unit := do
  match ← lift (filled? manifest field) with
  | some v => say ("  ✅ " ++ field ++ " = " ++ (← lift (shown v)))
  | none =>
    blame (.missingField field)
    say ("  ❌ " ++ field ++ "（缺失或为空）")

def checkAuthor (manifest : Value) : CheckM Unit := do
  if ← lift (manifest.holds "author") then
    let author ← lift (manifest.item "author")
    let name ← lift (author.get "name" .null)
    if name.truthy then say ("  ✅ author.name = " ++ (← lift name.display))
    else
      blame .emptyAuthor
      say "  ❌ author.name（为空）"
  else
    blame .missingAuthor
    say "  ❌ author（缺失）"

def checkRecommended (manifest : Value) (field : Text) : CheckM Unit := do
  match ← lift (filled? manifest field) with
  | some _ => say ("  ✅ " ++ field)
  | none =>
    advise (.emptyField field)
    say ("  ⚠️  " ++ field ++ "（未填写，建议填写）")

def checkCategory (category : Value) : CheckM Unit := do
  let shown ← lift category.display
  if categories.any fun allowed => category.isStr allowed then
    say ("  ✅ categories: " ++ shown)
  else
    blame (.badCategory shown)
    say ("  ❌ categories 包含无效分类：" ++ shown)

def checkCategories (manifest : Value) : CheckM Unit := do
  if ← lift (manifest.holds "categories") then
    each checkCategory (← lift (← lift (manifest.item "categories")).elements)

def versionNumbers? : Value → Option (List Int)
  | .str s => (Text.splitOn '.' s).mapM fun part =>
    match Text.readInt 10 part with
    | .number n => some n
    | _ => none
  | _ => none

def oldestHost : List Int := [0, 8, 0]

def comesBefore : List Int → List Int → Bool
  | _, [] => false
  | [], _ :: _ => true
  | a :: as, b :: bs => if a = b then comesBefore as bs else decide (a < b)

/-- The version is older than the oldest version of the host that has plugins of this kind. A version that is
not made of numbers is not. -/
def isOld (version : Value) : Bool :=
  match versionNumbers? version with
  | some numbers => comesBefore numbers oldestHost
  | none => false

def sayHost (range : Text) : CheckM Unit := say ("  ✅ 兼容版本：" ++ range)

/-- Says that the plugin works with old versions of the host; where this cannot be said, the versions alone
are tried. -/
def sayOldHost (range : Text) : CheckM Unit :=
  tryCatch (say ("  ⚠️  兼容版本：" ++ range ++ "（建议最低版本 ≥ 0.8.0）")) fun _ => sayHost range

def checkHost (manifest : Value) : CheckM Unit := do
  if ← lift (manifest.holds "host_application") then
    let host ← lift (manifest.item "host_application")
    if ← lift (host.holds "min_version") then
      let least ← lift (host.get "min_version" (str "0.0.0"))
      let greatest ← lift (host.get "max_version" (str "最新"))
      let oldest ← lift least.display
      let range := oldest ++ " ~ " ++ (← lift greatest.display)
      if isOld least then
        advise (.oldHostVersion oldest)
        sayOldHost range
      else sayHost range
    else advise .missingHostVersion

def checkManifestVersion (manifest : Value) : CheckM Unit := do
  let version ← lift (manifest.get "manifest_version" .null)
  if !version.isOne then
    blame (.badManifestVersion (← lift version.display))

def checkManifest (manifest : Value) : CheckM Unit := do
  each (checkRequired manifest) requiredFields
  checkAuthor manifest
  say "\n📋 检查可选字段..."
  each (checkRecommended manifest) recommendedFields
  checkCategories manifest
  checkHost manifest
  checkManifestVersion manifest

end PluginKit.Check
