import MessageEngine.Core.Types

/-!
# DuplicateFilter

The window of recently recorded `(source_id, message_id)` pairs. Until the window is full a
record goes to the next position; afterwards it overwrites the entry with the smallest
timestamp.
-/

namespace MessageEngine

open Outcome Table

structure DuplicateFilter.Entry where
  src : NodeId
  msgId : UInt64
  recordedUs : UInt64
  valid : Bool
  deriving DecidableEq

structure DuplicateFilter where
  window : Vector DuplicateFilter.Entry dedupWindowSize
  next : Nat
  count : Nat

namespace DuplicateFilter

def init : DuplicateFilter where
  window := Vector.replicate dedupWindowSize ⟨0, 0, 0, false⟩
  next := 0
  count := 0

def Entry.matches (src : NodeId) (msgId : UInt64) (entry : Entry) : Bool :=
  entry.valid && (entry.src == src && entry.msgId == msgId)

def isDuplicate (f : DuplicateFilter) (src : NodeId) (msgId : UInt64) : Checked Bool := do
  let found := (firstSlot? (Entry.matches src msgId) f.window).isSome
  neverCompiledOutAssert .duplicateFilterIsDuplicate (f.count ≤ dedupWindowSize)
  pure found

/-- The scan of `find_evict_idx`: the first invalid slot, or the oldest of the valid ones. -/
def findEvictIdx.scan (f : DuplicateFilter) :
    List (Fin dedupWindowSize) → Option (Fin dedupWindowSize) → Option (Fin dedupWindowSize)
  | [], oldest => oldest
  | i :: is, oldest =>
    if !f.window[i].valid then some i
    else match oldest with
      | none => scan f is (some i)
      | some o =>
        scan f is (if f.window[i].recordedUs < f.window[o].recordedUs then some i else some o)

def findEvictIdx (f : DuplicateFilter) : Checked (Fin dedupWindowSize) := do
  neverCompiledOutAssert .duplicateFilterFindEvictIdx (f.count ≥ dedupWindowSize)
  match findEvictIdx.scan f (List.finRange dedupWindowSize) none with
  | some i => pure i
  | none => throw (.assertion .duplicateFilterFindEvictIdx)

def record (f : DuplicateFilter) (src : NodeId) (msgId nowUs : UInt64) :
    Checked DuplicateFilter := do
  neverCompiledOutAssert .duplicateFilterRecord (f.count ≤ dedupWindowSize)
  neverCompiledOutAssert .duplicateFilterRecord (nowUs > 0)
  -- The write position must be inside the window before anything is written there.
  if h : f.next < dedupWindowSize then
    let writeIdx ← if f.count ≥ dedupWindowSize then f.findEvictIdx else pure ⟨f.next, h⟩
    pure { f with
      window := f.window.set writeIdx ⟨src, msgId, nowUs, true⟩ writeIdx.isLt
      next := (f.next + 1) % dedupWindowSize
      count := if f.count < dedupWindowSize then f.count + 1 else f.count }
  else
    throw (.assertion .duplicateFilterRecord)

def checkAndRecord (f : DuplicateFilter) (src : NodeId) (msgId nowUs : UInt64) :
    Checked (Result × DuplicateFilter) := do
  neverCompiledOutAssert .duplicateFilterCheckAndRecord (f.count ≤ dedupWindowSize)
  neverCompiledOutAssert .duplicateFilterCheckAndRecord (nowUs > 0)
  let duplicate ← f.isDuplicate src msgId
  if duplicate then
    pure (.errDuplicate, f)
  else
    let f ← f.record src msgId nowUs
    neverCompiledOutAssert .duplicateFilterCheckAndRecord (f.count ≤ dedupWindowSize)
    pure (.ok, f)

end DuplicateFilter

end MessageEngine
