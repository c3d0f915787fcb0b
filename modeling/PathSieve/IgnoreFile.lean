import PathSieve.FileTree
import PathSieve.Sieve

/-!
# Ignore files

A workspace may hold an ignore file, one pattern a line. A missing file leaves the built-in
patterns alone; a file that cannot be read, or is not UTF-8, is an error and gives no sieve.
Reading may take some waiting, and all else is done at once behind it.
-/

namespace PathSieve

set_option autoImplicit false

inductive LoadCause
  | unreadable (fault : ReadFault)
  | notUtf8 (fault : Text.Utf8Fault)
  deriving DecidableEq

structure LoadError where
  path : String
  cause : LoadCause
  deriving DecidableEq

namespace LoadCause

def message : LoadCause → String
  | .unreadable fault => fault.message
  | .notUtf8 _ => "file is not valid UTF-8"

/-- The messages of the causes behind an error, the nearest one first. -/
def chain (cause : LoadCause) : List String :=
  cause.message ::
    match cause with
    | .unreadable _ => []
    | .notUtf8 fault => [fault.message]

end LoadCause

def LoadError.message (error : LoadError) : String :=
  "failed to load ignore file '" ++ error.path ++ "': " ++ error.cause.message

/-- A value that is there now, or after some waiting. -/
inductive Awaited (α : Type)
  | now (value : α)
  | later (rest : Awaited α)

namespace Awaited

def map {α β : Type} (f : α → β) : Awaited α → Awaited β
  | .now value => .now (f value)
  | .later rest => .later (map f rest)

def outcome {α : Type} : Awaited α → α
  | .now value => value
  | .later rest => outcome rest

@[simp] theorem outcome_map {α β : Type} (f : α → β) (awaited : Awaited α) :
    (awaited.map f).outcome = f awaited.outcome := by
  induction awaited with
  | now value => rfl
  | later rest ih => exact ih

end Awaited

namespace IgnoreFile

def path (root : String) (settings : Settings) : String :=
  String.ofList (FileTree.join root.toList settings.fileName.toList)

def ofContents (settings : Settings) (path : String)
    (contents : Except ReadFault (List UInt8)) : Traced (Except LoadError Sieve) :=
  match contents with
  | .error fault =>
    if fault.isMissing then
      (Traced.mk () [.fileMissing path]).bind fun _ => (Sieve.ofSettings settings).map .ok
    else ⟨.error ⟨path, .unreadable fault⟩, []⟩
  | .ok bytes =>
    match Text.decode bytes with
    | .error fault => ⟨.error ⟨path, .notUtf8 fault⟩, []⟩
    | .ok text =>
      let lines := patternLines text
      (Traced.mk () [.fileLoaded path lines.length]).bind fun _ =>
        (Sieve.ofFile settings lines).map .ok

def loadThrough (read : List Char → Except ReadFault (List UInt8)) (root : String)
    (settings : Settings) : Traced (Except LoadError Sieve) :=
  let place := path root settings
  ofContents settings place (read place.toList)

def loadAwaiting (read : List Char → Awaited (Except ReadFault (List UInt8))) (root : String)
    (settings : Settings) : Awaited (Traced (Except LoadError Sieve)) :=
  let place := path root settings
  (read place.toList).map (ofContents settings place)

def load (tree : FileTree) (root : String) (settings : Settings) :
    Traced (Except LoadError Sieve) :=
  loadThrough tree.read root settings

end IgnoreFile

end PathSieve
