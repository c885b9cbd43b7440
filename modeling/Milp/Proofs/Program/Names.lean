import Milp.Proofs.Row.Checks
import Milp.Program

/-!
# Names of constraints

An engine knows constraints by their names. A name is a row's number with a suffix for the side, and from
these both can be read back, so that no two constraints of a program share a name.

* `name_injective` — the name of a constraint tells its row and its sense.
* `names_nodup` — the names of the constraints of a model are pairwise distinct.
-/

namespace Milp

namespace Program.Constraint

/-- The suffix of a name. -/
def suffix : Sense → List Char
  | .equal => []
  | .atLeast => ['_', 'l', 'o']
  | .atMost => ['_', 'h', 'i']

theorem toList_name (c : Constraint) :
    c.name.toList = 'r' :: (Nat.toDigits 10 c.row ++ suffix c.sense) := by
  unfold name
  cases c.sense <;> simp [suffix, toString]

theorem suffix_injective {s t : Sense} (h : suffix s = suffix t) : s = t := by
  cases s <;> cases t <;> simp_all [suffix]

/-- The digits of a name end where its suffix begins. -/
theorem takeWhile_digits (n : Nat) (s : Sense) :
    (Nat.toDigits 10 n ++ suffix s).takeWhile (· != '_') = Nat.toDigits 10 n := by
  have hdigits : ∀ d ∈ Nat.toDigits 10 n, (d != '_') = true := by
    intro d hd
    refine bne_iff_ne.mpr fun hunderscore => ?_
    rw [hunderscore] at hd
    exact Nat.underscore_not_in_toDigits hd
  rw [List.takeWhile_append_of_pos hdigits]
  cases s <;> simp [suffix]

/-- **The name of a constraint tells its row and its sense.** -/
theorem name_injective {c d : Constraint} (h : c.name = d.name) : c.row = d.row ∧ c.sense = d.sense := by
  have hlist : Nat.toDigits 10 c.row ++ suffix c.sense = Nat.toDigits 10 d.row ++ suffix d.sense := by
    have hchars := congrArg String.toList h
    rw [toList_name, toList_name] at hchars
    exact (List.cons.inj hchars).2
  have hdigits : Nat.toDigits 10 c.row = Nat.toDigits 10 d.row := by
    rw [← takeWhile_digits c.row c.sense, hlist, takeWhile_digits]
  rw [hdigits] at hlist
  refine ⟨?_, suffix_injective (List.append_cancel_left hlist)⟩
  have hvalue := congrArg (fun ds => Nat.ofDigitChars 10 ds 0) hdigits
  simpa using hvalue

end Program.Constraint

namespace Model

variable {m : Model} {position : Nat} {r : BoundedRow}

/-- **What one row can become**: one equal constraint, or two with different senses, or less. -/
theorem rowConstraints_sublist (m : Model) (position : Nat) (r : BoundedRow) :
    (m.rowConstraints position r).Sublist [⟨position, .equal, nonzeroTerms r.row, r.lo⟩] ∨
      (m.rowConstraints position r).Sublist
        ([⟨position, .atLeast, nonzeroTerms r.row, r.lo⟩] ++
          [⟨position, .atMost, nonzeroTerms r.row, r.hi⟩]) := by
  unfold rowConstraints
  dsimp only
  split
  · exact .inl (List.nil_sublist _)
  split
  · exact .inl (List.Sublist.refl _)
  refine .inr (List.Sublist.append ?_ ?_)
  · split
    · exact List.nil_sublist _
    · exact List.Sublist.refl _
  · split
    · exact List.nil_sublist _
    · exact List.Sublist.refl _

/-- A constraint carries the position of its row. -/
theorem row_of_mem_rowConstraints {c : Program.Constraint} (h : c ∈ m.rowConstraints position r) :
    c.row = position := by
  rcases m.rowConstraints_sublist position r with hsub | hsub
  · rw [List.mem_singleton.mp (hsub.subset h)]
  · rcases List.mem_append.mp (hsub.subset h) with h | h
    · rw [List.mem_singleton.mp h]
    · rw [List.mem_singleton.mp h]

/-- The constraints of one row have different senses. -/
theorem pairwise_rowConstraints (m : Model) (position : Nat) (r : BoundedRow) :
    (m.rowConstraints position r).Pairwise fun c d => c.sense ≠ d.sense := by
  rcases m.rowConstraints_sublist position r with hsub | hsub
  · exact (List.pairwise_singleton ..).sublist hsub
  · refine List.Pairwise.sublist hsub (List.pairwise_append.mpr
      ⟨List.pairwise_singleton .., List.pairwise_singleton .., ?_⟩)
    intro c hc d hd
    rw [List.mem_singleton.mp hc, List.mem_singleton.mp hd]
    exact Sense.noConfusion

/-- **The names of the constraints of a model are pairwise distinct.** -/
theorem names_nodup (m : Model) : (m.program.constraints.map (·.name)).Nodup := by
  -- within a row the senses differ, between rows the positions
  refine List.pairwise_map.mpr (List.pairwise_flatMap.mpr ⟨fun p hp => ?_, ?_⟩)
  · refine (m.pairwise_rowConstraints p.2 p.1).imp fun hsense hname => ?_
    exact hsense (Program.Constraint.name_injective hname).2
  · refine (pairwise_zipIdx m.rows).imp fun {p q} hpq c hc d hd hname => ?_
    have hrow := (Program.Constraint.name_injective hname).1
    rw [row_of_mem_rowConstraints hc, row_of_mem_rowConstraints hd] at hrow
    omega

end Model

end Milp
