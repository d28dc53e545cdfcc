import Mathlib.Data.List.DropRight
import Ochestrate.Framework.Dict

/-!
# Windows over a history

A `Window` holds at most `maxlen` items; one that is full drops its oldest item
when it gets another. `Windows` keeps one window for each key. `window_ofRecords`
says that the window of a key has the last items that were recorded for it,
whatever was recorded for others.
-/

namespace Ochestrate

universe u v

/-- At most `maxlen` items, the oldest first. -/
structure Window (α : Type u) (maxlen : Nat) where
  items : List α
  length_le : items.length ≤ maxlen

namespace Window

variable {α : Type u} {maxlen : Nat}

def empty : Window α maxlen := ⟨[], Nat.zero_le _⟩

/-- The window with one more item. -/
def append (window : Window α maxlen) (item : α) : Window α maxlen where
  items := (window.items ++ [item]).drop (if window.items.length < maxlen then 0 else 1)
  length_le := by
    have hlength := window.length_le
    rw [List.length_drop, List.length_append, List.length_singleton]
    split <;> omega

/-- A window with the last items of a history has the last items after one more. -/
theorem items_append {window : Window α maxlen} {history : List α} (h : window.items = history.rtake maxlen) (item : α) :
    (window.append item).items = (history ++ [item]).rtake maxlen := by
  have hlength : window.items.length = history.length - (history.length - maxlen) := by rw [h, List.rtake, List.length_drop]
  have happend : window.items ++ [item] = (history ++ [item]).drop (history.length - maxlen) := by
    rw [h, List.rtake, List.drop_append_of_le_length (by omega)]
  show (window.items ++ [item]).drop (if window.items.length < maxlen then 0 else 1) = _
  rw [happend, List.drop_drop, List.rtake, List.length_append, List.length_singleton]
  congr 1
  split <;> omega

end Window

/-- A window for each key that something was recorded for. -/
abbrev Windows (κ : Type u) (α : Type v) [DecidableEq κ] (maxlen : Nat) := Dict κ (Window α maxlen)

namespace Windows

variable {κ : Type u} {α : Type v} [DecidableEq κ] {maxlen : Nat}

def record (windows : Windows κ α maxlen) (key : κ) (item : α) : Windows κ α maxlen :=
  windows.set key (((windows.get? key).getD .empty).append item)

def window (windows : Windows κ α maxlen) (key : κ) : List α := ((windows.get? key).map Window.items).getD []

/-- The items recorded for a key. -/
def historyOf (key : κ) (records : List (κ × α)) : List α :=
  records.filterMap fun entry => if entry.1 = key then some entry.2 else none

theorem historyOf_concat (key : κ) (records : List (κ × α)) (entry : κ × α) :
    historyOf key (records ++ [entry]) = historyOf key records ++ if entry.1 = key then [entry.2] else [] := by
  rw [historyOf, List.filterMap_append]
  split
  · next h => simp [historyOf, h]
  · next h => simp [historyOf, h]

theorem window_record (windows : Windows κ α maxlen) (key : κ) (item : α) (key' : κ) :
    window (record windows key item) key' =
      if key' = key then (((windows.get? key).getD .empty).append item).items else window windows key' := by
  unfold window record
  rw [Dict.get?_set]
  split <;> rfl

/-- The window of a key after a record, from the window before. -/
theorem window_record_congr {windows windows' : Windows κ α maxlen} {key' : κ}
    (h : window windows key' = window windows' key') (key : κ) (item : α) :
    window (record windows key item) key' = window (record windows' key item) key' := by
  have hitems : ∀ windows : Windows κ α maxlen,
      ((windows.get? key').getD Window.empty).items = window windows key' := by
    intro windows
    unfold window
    cases windows.get? key' <;> rfl
  rw [window_record, window_record]
  split
  · next heq =>
    subst heq
    simp only [Window.append, hitems, h]
  · exact h

/-- The windows after records were made in turn. -/
def ofRecords (records : List (κ × α)) : Windows κ α maxlen :=
  records.foldl (fun windows entry => record windows entry.1 entry.2) Dict.empty

theorem ofRecords_concat (records : List (κ × α)) (entry : κ × α) :
    (ofRecords (records ++ [entry]) : Windows κ α maxlen) = record (ofRecords records) entry.1 entry.2 :=
  List.foldl_concat ..

/-- After any records the window of a key has the last that were for it. -/
theorem window_ofRecords (records : List (κ × α)) (key : κ) :
    window (ofRecords records : Windows κ α maxlen) key = (historyOf key records).rtake maxlen := by
  induction records using List.reverseRecOn with
  | nil => exact (List.rtake_nil maxlen).symm
  | append_singleton records entry ih =>
    rw [ofRecords_concat, window_record, historyOf_concat]
    split
    · next h =>
      subst h
      rw [if_pos rfl]
      refine Window.items_append ?_ entry.2
      rw [← ih, window]
      cases (ofRecords records : Windows κ α maxlen).get? entry.1 <;> rfl
    · next h => rw [if_neg fun heq => h heq.symm, List.append_nil, ih]

end Windows

end Ochestrate
