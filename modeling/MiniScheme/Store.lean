import MiniScheme.Value.Basic
/-!
# Frames and the store

A frame binds names to values and may be nested in a parent frame. The store keeps every frame
made so far; a frame is named by its index, and a frame's parent is always made before it, so its
index is smaller. The first frame, `0`, is the global frame.

`Store.lookup` finds a name in a frame or else in its parents, innermost first; `Store.define` binds
a name in one frame only, replacing the frame's own binding of it; `Store.child` makes a new frame
nested in another. A frame's parent never changes.
-/

namespace MiniScheme

/-- The bindings of one frame and the frame it is nested in. -/
structure Frame where
  parent : Option Nat
  bindings : List (String × Value)

namespace Frame

/-- The value the frame itself binds to `k`. -/
def get? (f : Frame) (k : String) : Option Value :=
  f.bindings.lookup k

/-- The frame with `k` bound to `v`, replacing its own binding of `k`. -/
def set (f : Frame) (k : String) (v : Value) : Frame :=
  { f with bindings := (k, v) :: f.bindings.filter (fun b => b.1 != k) }

/-- The frame with the names bound to the values in turn: where a name comes twice, the later binding
stands. -/
def setAll (f : Frame) (kvs : List (String × Value)) : Frame :=
  kvs.foldl (fun g kv => g.set kv.1 kv.2) f

end Frame

/-- Every frame made so far, named by its index. -/
structure Store where
  frames : Array Frame

namespace Store

/-- A store with only the empty global frame `0`. -/
def init : Store :=
  ⟨#[⟨none, []⟩]⟩

/-- The parent of a frame. -/
def parent? (st : Store) (frame : Nat) : Option Nat :=
  (st.frames[frame]?).bind Frame.parent

/-- The innermost binding of `k` seen from `frame`: in the frame, else in its parents, nearest
first. -/
def lookup (st : Store) (frame : Nat) (k : String) : Option Value :=
  match st.frames[frame]? with
  | none => none
  | some f =>
    match f.get? k with
    | some v => some v
    | none =>
      match f.parent with
      | some p => if p < frame then st.lookup p k else none
      | none => none
termination_by frame

/-- The store with `k` bound to `v` in `frame` alone. -/
def define (st : Store) (frame : Nat) (k : String) (v : Value) : Store :=
  ⟨st.frames.modify frame (·.set k v)⟩

/-- A new frame nested in `parent`, with the given bindings: its name and the new store. -/
def child (st : Store) (parent : Nat) (kvs : List (String × Value)) : Nat × Store :=
  (st.frames.size, ⟨st.frames.push ((Frame.mk (some parent) []).setAll kvs)⟩)

end Store

end MiniScheme
