import PathSieve.IgnoreFile

/-!
# Sessions

A session works on one workspace: it changes files and settings, keeps sieves in named slots, and
asks them about paths. A step that names an empty slot changes nothing.
-/

namespace PathSieve

set_option autoImplicit false

inductive Source
  | ofLines (settings : Settings) (lines : List String)
  | ofText (text : String)
  deriving DecidableEq

def Source.sieve : Source → Traced Sieve
  | .ofLines settings lines => Sieve.ofLines settings lines
  | .ofText text => Sieve.ofText text

structure Session where
  tree : FileTree
  root : String
  settings : Settings
  slots : List (String × Sieve)
  paths : List String

namespace Session

inductive Step
  | write (path : String) (bytes : List UInt8)
  | makeDirectory (path : String)
  | remove (path : String)
  | configure (reset : Bool) (fileName? : Option String) (withBuiltins? : Option Bool)
  | build (slot : String) (source : Source)
  | buildCurrent (slot : String) (lines : List String)
  | load (slot : String) (below : String)
  | share (slot target : String)
  | drop (slot : String)
  | explain (slot path : String)
  | asks (slot path : String)
  | summarize (slot : String)
  | choose (paths : List String)
  | narrow (slot : String)

inductive Reply
  | done
  | absent
  | settings (settings : Settings)
  | stored (sieve : Sieve)
  | loadFailed (error : LoadError)
  | shared
  | dropped (existed : Bool)
  | verdict (verdict : Verdict)
  | ignored (ignored : Bool)
  | summary (summary : Summary)
  | count (count : Nat)
  | kept (paths : List String)
  | noSuchSlot

def start (tree : FileTree) (root : String) : Session := ⟨tree, root, .standard, [], []⟩

def within (session : Session) (path : String) : List Char :=
  FileTree.join session.root.toList path.toList

def slot? (session : Session) (slot : String) : Option Sieve := session.slots.lookup slot

def without (session : Session) (slot : String) : Session :=
  { session with slots := session.slots.filter fun entry => entry.1 != slot }

def store (session : Session) (slot : String) (sieve : Sieve) : Session :=
  { session with slots := (slot, sieve) :: (session.without slot).slots }

def withSlot (session : Session) (slot : String) (answer : Sieve → Session × Reply) :
    Session × Reply :=
  match session.slot? slot with
  | some sieve => answer sieve
  | none => (session, .noSuchSlot)

def place (session : Session) (slot : String) (sieve : Sieve) : Session × Reply :=
  (session.store slot sieve, .stored sieve)

def rootBelow (session : Session) (below : String) : String :=
  if below.isEmpty then session.root else String.ofList (session.within below)

def step (session : Session) : Step → Session × Reply
  | .write path bytes =>
    ({ session with tree := session.tree.write (session.within path) bytes }, .done)
  | .makeDirectory path =>
    ({ session with tree := session.tree.makeDirectory (session.within path) }, .done)
  | .remove path =>
    match session.tree.remove? (session.within path) with
    | some tree => ({ session with tree }, .done)
    | none => (session, .absent)
  | .configure reset fileName? withBuiltins? =>
    let base := if reset then .standard else session.settings
    let settings := base.overlay fileName? withBuiltins?
    ({ session with settings }, .settings settings)
  | .build slot source => session.place slot source.sieve.value
  | .buildCurrent slot lines => session.place slot (Sieve.ofLines session.settings lines).value
  | .load slot below =>
    match (IgnoreFile.load session.tree (session.rootBelow below) session.settings).value with
    | .ok sieve => session.place slot sieve
    | .error error => (session, .loadFailed error)
  | .share slot target =>
    session.withSlot slot fun sieve => (session.store target sieve, .shared)
  | .drop slot => (session.without slot, .dropped (session.slot? slot).isSome)
  | .explain slot path =>
    session.withSlot slot fun sieve => (session, .verdict (sieve.explain path).value)
  | .asks slot path => session.withSlot slot fun sieve => (session, .ignored (sieve.ignores path))
  | .summarize slot => session.withSlot slot fun sieve => (session, .summary sieve.summary)
  | .choose paths => ({ session with paths }, .count paths.length)
  | .narrow slot =>
    session.withSlot slot fun sieve =>
      let kept := (sieve.keep session.paths).value
      ({ session with paths := kept }, .kept kept)

/-- The session behind the steps, with a reply to each of them. -/
def run (session : Session) : List Step → Session × List Reply
  | [] => (session, [])
  | step :: steps =>
    let next := session.step step
    let rest := next.1.run steps
    (rest.1, next.2 :: rest.2)

end Session

end PathSieve
