import Dialogue.Asset
import Dialogue.Notice
import Dialogue.Script.Compile

/-! # Cache of compiled scripts

    Compiled conversations are kept under the name of their asset, together
    with the source and the variables they were compiled from. They are used
    again only while both are unchanged. A script that does not compile leaves
    the cache as it was.

    Each compilation gives its conversations a serial number of their own, so
    that one can see whether two requests were answered by the same compilation.
-/

namespace Dialogue

/-- Conversations, and the number of the compilation they came from. -/
structure CompiledSet where
  serial : Nat
  conversations : List Conversation
  deriving DecidableEq

/-- A compiled set, and what it was compiled from. -/
structure CacheEntry where
  source : Text
  globals : Variables
  set : CompiledSet
  deriving DecidableEq

/-- Compiled sets by the name of their asset. -/
structure Cache where
  entries : TextMap CacheEntry
  /-- How many compilations there have been. -/
  compilations : Nat
  deriving DecidableEq

/-- The answer of a cache: a compiled set or a refusal, the cache after the
    request, and what the log keeps of it. -/
structure Fetched where
  result : Except CompileError CompiledSet
  cache : Cache
  notices : List Notice

namespace Cache

/-- A cache without entries. -/
def empty : Cache := ⟨∅, 0⟩

/-- The number of entries. -/
def size (c : Cache) : Nat := c.entries.size

/-- The set that was compiled from this source and these variables, if the
    entry of the asset holds it. -/
def lookup? (c : Cache) (asset : Asset) (globals : Variables) : Option CompiledSet :=
  match c.entries[asset.name]? with
  | none => none
  | some e =>
    if e.source = asset.source ∧ e.globals = globals then some e.set else none

/-- Gives conversations a serial number and keeps them under the asset's name. -/
def store (c : Cache) (asset : Asset) (globals : Variables) (set : List Conversation) : Cache where
  entries := c.entries.insert asset.name ⟨asset.source, globals, ⟨c.compilations, set⟩⟩
  compilations := c.compilations + 1

/-- The compiled set of an asset under these variables, from the cache where it
    is there. -/
def fetch (c : Cache) (asset : Asset) (globals : Variables) : Fetched :=
  match c.lookup? asset globals with
  | some set => ⟨.ok set, c, [.reused asset.name]⟩
  | none =>
    match compile globals asset.source with
    | .error e => ⟨.error e, c, []⟩
    | .ok set =>
      ⟨.ok ⟨c.compilations, set⟩, c.store asset globals set,
        [.compiled set.length asset.name]⟩

/-- The cache without the entry of that name. -/
def invalidate (c : Cache) (name : Text) : Cache := { c with entries := c.entries.erase name }

/-- The cache without any entry. -/
def clear (c : Cache) : Cache := { c with entries := ∅ }

end Cache

end Dialogue
