/-!
# Cutting text at a mark

`cutAt` cuts a row of characters at every mark. A row without a mark is one part (`cutAt_of_not_mem`), and else the first part ends
at the first mark (`cutAt_append`).
-/

namespace DatabaseBroker.Text

/-- A row of characters cut at every mark. -/
def cutAt (mark : Char) : List Char → List (List Char)
  | [] => [[]]
  | c :: cs =>
    if c = mark then [] :: cutAt mark cs
    else match cutAt mark cs with
      | part :: parts => (c :: part) :: parts
      | [] => [[c]]

/-- A row without a mark is one part. -/
theorem cutAt_of_not_mem {mark : Char} {cs : List Char} (h : mark ∉ cs) : cutAt mark cs = [cs] := by
  induction cs with
  | nil => rfl
  | cons c cs ih =>
    simp only [List.mem_cons, not_or] at h
    obtain ⟨hc, hcs⟩ := h
    simp [cutAt, Ne.symm hc, ih hcs]

/-- The first part of a row ends at the first mark. -/
theorem cutAt_append {mark : Char} {part : List Char} (h : mark ∉ part) (cs : List Char) :
    cutAt mark (part ++ mark :: cs) = part :: cutAt mark cs := by
  induction part with
  | nil => simp [cutAt]
  | cons c part ih =>
    simp only [List.mem_cons, not_or] at h
    obtain ⟨hc, hpart⟩ := h
    simp [cutAt, Ne.symm hc, ih hpart]

end DatabaseBroker.Text
