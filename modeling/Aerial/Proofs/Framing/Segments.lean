import Aerial.Connection
import Mathlib.Data.List.Infix

/-! # Segments do not matter

A framer goes on with the rest of a segment as if the next had come with it, so all that
counts is what the segments amount to together. A client sends lines of which none is too long.
Cut off anywhere, what came of them is some lines and the beginning of the next. -/

namespace Aerial.Framer

/-- A line as it may be sent: in one piece, and not too long. -/
def Plain (line : Octets) : Prop := 10 ∉ line ∧ line.length ≤ lineLimit

instance (line : Octets) : Decidable (Plain line) := inferInstanceAs (Decidable (_ ∧ _))

theorem plain_nil : Plain [] := ⟨List.not_mem_nil, Nat.zero_le _⟩

theorem Plain.of_isPrefix {line w : Octets} (h : Plain line) (hw : w <+: line) : Plain w :=
  ⟨fun hmem => h.1 (hw.subset hmem), Nat.le_trans hw.length_le h.2⟩

/-- Lines as they are sent. -/
def terminated (lines : List Octets) : Octets := lines.flatMap (· ++ [10])

theorem terminated_cons (line : Octets) (lines : List Octets) :
    terminated (line :: lines) = line ++ 10 :: terminated lines := by
  simp [terminated]

/-- There is a line feed for each line, and nowhere else. -/
theorem count_terminated {lines : List Octets} (h : ∀ line ∈ lines, Plain line) {w : Octets}
    (hw : Plain w) : (terminated lines ++ w).count 10 = lines.length := by
  induction lines with
  | nil => exact List.count_eq_zero_of_not_mem hw.1
  | cons line lines ih =>
    have hline := List.count_eq_zero_of_not_mem (h line List.mem_cons_self).1
    rw [terminated_cons, List.append_assoc, List.cons_append, List.count_append, hline,
      List.count_cons_self, ih fun l hl => h l (List.mem_cons_of_mem line hl), List.length_cons,
      Nat.zero_add]

/-! ## One buffer -/

section

variable {buffer : Octets}

theorem cut_of_lt (long : lineLimit < (buffer.takeWhile (· ≠ 10)).length) :
    cut buffer = ([], .overrun) := by
  rw [cut]
  exact if_pos long

theorem cut_of_nil (short : ¬lineLimit < (buffer.takeWhile (· ≠ 10)).length)
    (hdrop : buffer.dropWhile (· ≠ 10) = []) :
    cut buffer = ([], .collecting (buffer.takeWhile (· ≠ 10))) := by
  rw [cut]
  dsimp only
  rw [if_neg short]
  split
  · rfl
  · rename_i hcons
    rw [hdrop] at hcons
    cases hcons

theorem cut_of_cons {b : UInt8} {rest : Octets}
    (short : ¬lineLimit < (buffer.takeWhile (· ≠ 10)).length)
    (hdrop : buffer.dropWhile (· ≠ 10) = b :: rest) :
    cut buffer = (buffer.takeWhile (· ≠ 10) :: (cut rest).1, (cut rest).2) := by
  rw [cut]
  dsimp only
  rw [if_neg short]
  split
  · rename_i hnil
    rw [hdrop] at hnil
    cases hnil
  · rename_i hcons
    rw [hdrop] at hcons
    cases hcons
    rfl

end

theorem not_mem_takeWhile (buffer : Octets) : 10 ∉ buffer.takeWhile (· ≠ 10) := by
  intro h
  simpa using List.all_eq_true.mp List.all_takeWhile 10 h

theorem span_of_nil {buffer : Octets} (hdrop : buffer.dropWhile (· ≠ 10) = []) :
    buffer.takeWhile (· ≠ 10) = buffer := by
  have hspan := List.takeWhile_append_dropWhile (p := (· ≠ (10 : UInt8))) (l := buffer)
  rwa [hdrop, List.append_nil] at hspan

/-- To cut a buffer is to cut what there was of it before, and go on with the rest. -/
theorem cut_append (a b : Octets) :
    cut (a ++ b) = match cut a with
      | (lines, .collecting u) => (lines ++ (cut (u ++ b)).1, (cut (u ++ b)).2)
      | (lines, .overrun) => (lines, .overrun) := by
  fun_induction cut a with
  | case1 a line long =>
    refine cut_of_lt (Nat.lt_of_lt_of_le long ?_)
    rw [List.takeWhile_append]
    split
    · rename_i hall
      rw [List.length_append, ← hall]
      exact Nat.le_add_right ..
    · exact Nat.le_refl _
  | case2 a line short hdrop =>
    rw [show line = a from span_of_nil hdrop]
    exact Prod.ext (List.nil_append _).symm rfl
  | case3 a line short c rest hdrop lines framer hrest ih =>
    obtain ⟨htake, hdrop'⟩ := Octets.span_append (p := (· ≠ 10)) (by rw [hdrop]; simp) b
    rw [hdrop, List.cons_append] at hdrop'
    rw [cut_of_cons (by rwa [htake]) hdrop', htake, ih, hrest]
    cases framer with
    | collecting u => rfl
    | overrun => rfl

/-- What a framer keeps is plain. -/
theorem plain_of_cut {buffer u : Octets} {lines : List Octets}
    (h : cut buffer = (lines, .collecting u)) : Plain u := by
  fun_induction cut buffer generalizing lines with
  | case1 => cases h
  | case2 buffer line short =>
    rw [← collecting.inj (Prod.mk.inj h).2]
    exact ⟨not_mem_takeWhile buffer, Nat.le_of_not_lt short⟩
  | case3 =>
    rename_i hrest ih
    cases h
    exact ih hrest

/-! ## Plain lines -/

theorem Plain.inside {line : Octets} (h : Plain line) : ∀ b ∈ line, decide (b ≠ 10) = true := by
  intro b hb
  rw [decide_eq_true_eq]
  rintro rfl
  exact h.1 hb

theorem cut_plain {w : Octets} (h : Plain w) : cut w = ([], .collecting w) := by
  obtain ⟨htake, hdrop⟩ := Octets.span_exact h.inside (show ∀ b ∈ [].head?, decide (b ≠ 10) = false by simp)
  rw [List.append_nil] at htake hdrop
  have hshort : ¬lineLimit < (w.takeWhile (· ≠ 10)).length := by
    rw [htake]
    exact Nat.not_lt.mpr h.2
  rw [cut_of_nil hshort hdrop, htake]

/-- A part of some lines, from the first byte on, is some of the lines and the beginning of
the next. -/
theorem prefix_terminated {lines : List Octets} {p : Octets} (h : p <+: terminated lines) :
    ∃ done rest w, lines = done ++ rest ∧ p = terminated done ++ w ∧ w <+: rest.headD [] := by
  induction lines generalizing p with
  | nil =>
    obtain rfl := List.prefix_nil.mp h
    exact ⟨[], [], [], rfl, rfl, List.prefix_refl _⟩
  | cons line lines ih =>
    rw [terminated_cons] at h
    rcases List.prefix_or_prefix_of_prefix h (List.prefix_append line _) with hp | ⟨q, rfl⟩
    · exact ⟨[], line :: lines, p, rfl, rfl, hp⟩
    · rw [List.prefix_append_right_inj, List.prefix_cons_iff] at h
      rcases h with rfl | ⟨q, rfl, hq⟩
      · exact ⟨[], line :: lines, line ++ [], rfl, rfl, by simp⟩
      · obtain ⟨done, rest, w, rfl, rfl, hw⟩ := ih hq
        refine ⟨line :: done, rest, w, rfl, ?_, hw⟩
        rw [terminated_cons, List.append_assoc, List.cons_append]

end Aerial.Framer
