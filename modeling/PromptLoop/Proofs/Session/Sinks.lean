import PromptLoop.Proofs.Session.Invariant

set_option autoImplicit false

namespace PromptLoop.Sink

structure Alike (s t : Sink) : Prop where
  room : s.room = none ↔ t.room = none
  closing : s.closeFailure? = t.closeFailure?

theorem Alike.refl (s : Sink) : s.Alike s :=
  ⟨Iff.rfl, rfl⟩

/-- A write leaves the limits of a sink as they are. It takes the whole text, or fails and takes the
beginning of it. -/
theorem write_cases (s : Sink) (text : String) :
    ((s.write text).2 = none ∧ (s.write text).1.written = s.written ++ text.toUTF8) ∨
    ((s.write text).2 = some writeFailure ∧ s.room ≠ none ∧
      ∃ rest, (s.write text).1.written ++ rest = s.written ++ text.toUTF8) := by
  unfold Sink.write
  cases hr : s.room with
  | none => exact .inl ⟨rfl, rfl⟩
  | some room =>
    dsimp only
    split
    · exact .inl ⟨rfl, rfl⟩
    · rename_i hfull
      refine .inr ⟨rfl, by simp, text.toUTF8.extract room text.toUTF8.size, ?_⟩
      dsimp only
      rw [ByteArray.append_assoc, ByteArray.extract_append_extract, Nat.min_eq_left (Nat.zero_le _),
        Nat.max_eq_right (by omega), ByteArray.extract_zero_size]

theorem Alike.write {s t : Sink} (h : s.Alike t) (text : String) :
    (s.write text).1.Alike t := by
  unfold Sink.write
  cases hr : s.room with
  | none => exact ⟨by simpa [hr] using h.room, h.closing⟩
  | some room =>
    have hroom : t.room ≠ none := by
      intro ht
      simpa [hr] using h.room.2 ht
    dsimp only
    split <;> exact ⟨by simp [hroom], h.closing⟩

/-- `s` has all that `t` has behind what stood there before, and neither sink can fail. -/
structure Trails (s t : Sink) (head : ByteArray) : Prop where
  written : s.written = head ++ t.written
  steady : ¬ s.MayFail
  steady' : ¬ t.MayFail

section Trails
variable {s t : Sink} {head : ByteArray}

theorem write_of_steady (h : ¬ s.MayFail) (text : String) :
    s.write text = ({ s with written := s.written ++ text.toUTF8 }, none) := by
  cases hr : s.room with
  | none => simp [Sink.write, hr]
  | some room => exact absurd (.inl (by simp [hr])) h

theorem close_of_steady (h : ¬ s.MayFail) : s.close.2 = none := by
  cases hc : s.failsToClose with
  | false => rw [close_failure, closeFailure?, hc, if_neg Bool.false_ne_true]
  | true => exact absurd (.inr hc) h

theorem Trails.write (h : s.Trails t head) (text : String) :
    (s.write text).2 = none ∧ (t.write text).2 = none ∧
      (s.write text).1.Trails (t.write text).1 head := by
  rw [write_of_steady h.steady, write_of_steady h.steady']
  exact ⟨rfl, rfl, by simp [h.written, ByteArray.append_assoc], h.steady, h.steady'⟩

theorem Trails.close (h : s.Trails t head) :
    s.close.2 = none ∧ t.close.2 = none ∧ s.close.1.Trails t.close.1 head := by
  exact ⟨close_of_steady h.steady, close_of_steady h.steady', h.written, h.steady, h.steady'⟩

end Trails
end PromptLoop.Sink
