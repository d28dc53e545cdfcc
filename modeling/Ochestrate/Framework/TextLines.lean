import Mathlib.Data.List.Basic

/-!
# The lines of a text

A text that is written piece by piece has lines that end and a rest that may still
grow. `TextLines.of_append_line` says what a line does that is written with its end,
and `ended_append` that more text leaves the lines in front of it as they are.
-/

namespace Ochestrate

/-- The lines of a text that end, and what stands after the last of them. -/
structure TextLines where
  ended : List (List Char) := []
  rest : List Char := []

namespace TextLines

def push (lines : TextLines) (c : Char) : TextLines :=
  if c = '\n' then ⟨lines.ended ++ [lines.rest], []⟩ else ⟨lines.ended, lines.rest ++ [c]⟩

def of (text : List Char) : TextLines := text.foldl push {}

theorem foldl_push {part : List Char} (h : '\n' ∉ part) (lines : TextLines) :
    part.foldl push lines = ⟨lines.ended, lines.rest ++ part⟩ := by
  induction part generalizing lines with
  | nil => simp
  | cons c part ih =>
    rw [List.mem_cons, not_or] at h
    rw [List.foldl_cons, ih h.2, push, if_neg (Ne.symm h.1), List.append_assoc, List.singleton_append]

/-- A part without a line end. -/
theorem of_append {part : List Char} (h : '\n' ∉ part) (text : List Char) :
    of (text ++ part) = ⟨(of text).ended, (of text).rest ++ part⟩ := by
  rw [of, List.foldl_append, foldl_push h]
  rfl

/-- A line with its end. -/
theorem of_append_line {line : List Char} (h : '\n' ∉ line) (text : List Char) :
    of (text ++ (line ++ ['\n'])) = ⟨(of text).ended ++ [(of text).rest ++ line], []⟩ := by
  rw [← List.append_assoc, of, List.foldl_append]
  have hline : (text ++ line).foldl push {} = _ := of_append h text
  rw [hline]
  rfl

theorem foldl_push_ended (text : List Char) (lines : TextLines) :
    text.foldl push lines = ⟨lines.ended ++ (text.foldl push ⟨[], lines.rest⟩).ended,
      (text.foldl push ⟨[], lines.rest⟩).rest⟩ := by
  induction text generalizing lines with
  | nil => simp
  | cons c text ih =>
    rw [List.foldl_cons, List.foldl_cons, ih, ih (push ⟨[], lines.rest⟩ c)]
    unfold push
    split <;> simp

/-- More text adds lines. -/
theorem ended_append (text more : List Char) : (of text).ended <+: (of (text ++ more)).ended := by
  rw [of, of, List.foldl_append, foldl_push_ended more]
  exact List.prefix_append ..

/-- Text after a line end has lines of its own. -/
theorem ended_append_of_rest {text : List Char} (h : (of text).rest = []) (more : List Char) :
    (of (text ++ more)).ended = (of text).ended ++ (of more).ended := by
  have htext : (text.foldl push {}).rest = [] := h
  rw [of, List.foldl_append, foldl_push_ended more, htext]
  rfl

end TextLines

end Ochestrate
