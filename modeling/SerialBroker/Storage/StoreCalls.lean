import SerialBroker.Core.Validation
import SerialBroker.Storage.StoreProgram

/-!
# The calls of the configuration store

`load`, `save`, `remove` and `find` of `storage/configuration-store.ts`, with everything they read
and write. What is stored may be any text under any of the keys. Log records are left out.
-/

namespace SerialBroker

/-- The names the index lists, and whether the index needs writing back. -/
structure ListedNames where
  names : List JsString
  isIntact : Bool
  deriving DecidableEq

inductive EntryOutcome
  | restored (configuration : NormalizedConfiguration)
  | discarded
  | unreadable

namespace ConfigurationStore

open StoreProgram

def text? : JsTree → Option JsString
  | .string s => some s
  | _ => none

/-- The names an array lists: its texts, each once. -/
def namesOf (elements : List JsTree) : List JsString := (elements.filterMap text?).eraseDups

def write (key : StorageKey) (value : JsonText) : StoreProgram Bool :=
  .setItem key value fun isDone =>
    if isDone then pure true else .report (.unavailable "write") (pure false)

def writeIndex (names : List JsString) : StoreProgram Bool :=
  write .index (.stringify (.array (names.map .string)))

def removeEntry (name : JsString) : StoreProgram Unit :=
  .removeItem (.entry name) fun isDone =>
    if isDone then pure () else tellProblem (.unavailable "clear")

def discardEntry (name : JsString) (reason : String) : StoreProgram Unit :=
  .report (.corruptEntry name reason) (removeEntry name)

def discardIndex (reason : String) (reportProblem : Bool) : StoreProgram Unit := do
  if reportProblem then tellProblem (.corruptIndex reason)
  .removeItem .index fun isDone => if isDone then pure () else tellProblem (.unavailable "clear")

def readIndex (reportProblems : Bool) : StoreProgram ListedNames := do
  match ← read .index with
  | none =>
    tellProblem (.unavailable "read")
    return ⟨[], true⟩
  | some none => return ⟨[], true⟩
  | some (some raw) =>
    match raw.parse with
    | none =>
      discardIndex "The list of remembered configurations was not valid JSON" reportProblems
      return ⟨[], true⟩
    | some (.array elements) =>
      let names := namesOf elements
      if names.length ≠ elements.length && reportProblems then
        tellProblem (.corruptIndex
          "Entries of the list of remembered configurations were discarded because they are not names")
      return ⟨names, names.length = elements.length⟩
    | some _ =>
      discardIndex "The list of remembered configurations was not an array" reportProblems
      return ⟨[], true⟩

/-- Lists `name`, if it is not listed already. -/
def listName (name : JsString) : StoreProgram Unit := do
  let ⟨names, isIntact⟩ ← readIndex false
  if isIntact && names.contains name then return
  let _ ← writeIndex (if names.contains name then names else names ++ [name])

def remove (name : JsString) : StoreProgram Unit := do
  let ⟨names, _⟩ ← readIndex false
  if names.contains name then
    if ← writeIndex (names.filter (· ≠ name)) then removeEntry name

section decoded

variable (textDecoder : JsString → Option JsString)

def restore (name : JsString) : StoreProgram EntryOutcome := do
  match ← read (.entry name) with
  | none =>
    tellProblem (.unavailable "read")
    return .unreadable
  | some none => return .discarded
  | some (some raw) =>
    match raw.parse with
    | none =>
      discardEntry name "the entry is not valid JSON"
      return .discarded
    | some parsed =>
      match normalizeConfiguration textDecoder (.string name) parsed with
      | .ok configuration => return .restored configuration
      | .error _ =>
        discardEntry name "it is no longer valid"
        return .discarded

/-- The loop of `load`: what was restored, and the names that are kept. -/
def restoreAll : List JsString → StoreProgram (List NormalizedConfiguration × List JsString)
  | [] => return ([], [])
  | name :: names => do
    let outcome ← restore textDecoder name
    let (restored, kept) ← restoreAll names
    return match outcome with
      | .restored configuration => (configuration :: restored, name :: kept)
      | .unreadable => (restored, name :: kept)
      | .discarded => (restored, kept)

def load : StoreProgram (List NormalizedConfiguration) := do
  let ⟨names, isIntact⟩ ← readIndex true
  let (restored, kept) ← restoreAll textDecoder names
  if !isIntact || kept.length ≠ names.length then
    let _ ← writeIndex kept
  return restored

def find (name : JsString) : StoreProgram (Option NormalizedConfiguration) := do
  match ← read .index with
  | none => return none
  | some index =>
    match (index.getD (.of (.array []))).parse with
    | some (.array elements) =>
      if !(elements.any fun element => element.isSame (.string name)) then return none
      match ← read (.entry name) with
      | none | some none => return none
      | some (some raw) =>
        return raw.parse.bind fun parsed =>
          (normalizeConfiguration textDecoder (.string name) parsed).toOption
    | _ => return none

/-- `#keepingStoredResolution`, from what is found. -/
def keepingResolution (configuration : NormalizedConfiguration)
    (stored : Option NormalizedConfiguration) : NormalizedConfiguration :=
  match configuration.device, stored.map NormalizedConfiguration.device with
  | .auto none, some (.auto (some device)) => { configuration with device := .auto (some device) }
  | _, _ => configuration

def keepingStoredResolution (configuration : NormalizedConfiguration) :
    StoreProgram NormalizedConfiguration :=
  if configuration.device = .auto none then do
    return keepingResolution configuration (← find textDecoder configuration.name.val)
  else return configuration

def save (configuration : NormalizedConfiguration) : StoreProgram Unit :=
  if configuration.remember then do
    let kept ← keepingStoredResolution textDecoder configuration
    if ← write (.entry configuration.name.val) (.stringify (toStorable kept)) then
      listName configuration.name.val
  else remove configuration.name.val

end decoded

end ConfigurationStore

end SerialBroker
