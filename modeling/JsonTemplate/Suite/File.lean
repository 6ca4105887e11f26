import JsonTemplate.Suite.Run

set_option autoImplicit false

/-!
# Suite files

A suite is kept in a file, as YAML or as JSON, which is YAML too. What its text means is up to the
loader that is handed in.
-/

namespace JsonTemplate

inductive FileEntry where
  | missing
  | directory
  | content (octets : List UInt8)
deriving Repr

namespace Suite

/-- A loader of YAML texts: the data of a text with its pool, or why there are none. -/
abbrev Loader := Text → Except Yaml.Fault (Data.Pool × Data)

/-- The loose data of a suite text. A document that counts as false is an empty suite. -/
def dataOfText (load : Loader) (text : Text) : Except Failure (Data.Pool × Data) :=
  match load text with
  | .error .malformed => .error (.reported (.argument .suiteText))
  | .error fault => .error (.escaped (.suiteValue fault))
  | .ok (pool, data) => .ok (pool, if data.isTrue pool then data else .mapping [])

def dataOfFile (load : Loader) (path : Text) : FileEntry → Except Failure (Data.Pool × Data)
  | .missing => .error (.escaped (.fileMissing path))
  | .directory => .error (.escaped .fileIsDirectory)
  | .content octets =>
      match Utf8.decode octets with
      | .error _ => .error (.escaped .fileNotUtf8)
      | .ok text => dataOfText load text

def ofFile {σ : Type} (load : Loader) (host : Host σ) (given : Option (Registry σ)) (path : Text)
    (entry : FileEntry) : Except Failure (Suite σ) := do
  let (pool, data) ← dataOfFile load path entry
  ofData host given pool data

end Suite

end JsonTemplate
