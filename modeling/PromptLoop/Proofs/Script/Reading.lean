import PromptLoop.Proofs.Script.Scanning
import PromptLoop.Script.Parse

set_option autoImplicit false

namespace PromptLoop.Script

/-- The tokens lead from one fragment to another. -/
def Reads (limit : Nat) (f : Fragment) (tokens : List Token) (g : Fragment) : Prop :=
  tokens.foldlM (Fragment.push limit) f = .ok g

variable {limit : Nat} {purpose : Purpose} {frames : List Frame} {f g : Fragment}
  {tokens : List Token}

theorem Reads.nil : Reads limit f [] f := rfl

theorem Reads.cons {t : Token} (hpush : Fragment.push limit f t = .ok g) {h : Fragment}
    (hrest : Reads limit g tokens h) : Reads limit f (t :: tokens) h := by
  unfold Reads
  rw [List.foldlM_cons, hpush]
  exact hrest

theorem Reads.append {more : List Token} {h : Fragment} (hfront : Reads limit f tokens g)
    (hback : Reads limit g more h) : Reads limit f (tokens ++ more) h := by
  unfold Reads at hfront ⊢
  rw [List.foldlM_append, hfront]
  exact hback

theorem Reads.split {more : List Token} (h : Reads limit f (tokens ++ more) g) :
    ∃ k, Reads limit f tokens k ∧ Reads limit k more g :=
  exists_of_foldlM_append h

theorem Reads.of_prefix {front : List Token} (h : Reads limit f tokens g)
    (hfront : front <+: tokens) : ∃ k, Reads limit f front k := by
  obtain ⟨back, rfl⟩ := hfront
  obtain ⟨k, hk, -⟩ := h.split
  exact ⟨k, hk⟩

theorem Reads.push_of_singleton {t : Token} (h : Reads limit f [t] g) :
    Fragment.push limit f t = .ok g :=
  (foldlM_singleton t).symm.trans h

theorem Reads.of_push_eq {t : Token} {h : Fragment}
    (heq : Fragment.push limit f t = Fragment.push limit g t)
    (hreads : Reads limit g (t :: tokens) h) : Reads limit f (t :: tokens) h := by
  unfold Reads at hreads ⊢
  rw [List.foldlM_cons] at hreads ⊢
  rw [heq]
  exact hreads

theorem push_inside {awaiting : Awaiting} (h : ∀ name, awaiting ≠ .afterName name) (t : Token) :
    Fragment.push limit (.inside purpose frames awaiting) t =
      Fragment.pushInside limit purpose frames awaiting t := by
  cases awaiting with
  | afterName name => exact absurd rfl (h name)
  | _ => cases purpose <;> cases frames <;> rfl

theorem push_start (hl : 0 < limit) {t : Token} (hw : ∀ w, t ≠ .word w)
    (hs : t ≠ .symbol .semicolon) :
    Fragment.push limit .start t = Fragment.push limit (.inside .result [] .operand) t := by
  have henter : Fragment.enter limit .result [] .operand = .ok (.inside .result [] .operand) :=
    if_pos hl
  have hstart : Fragment.push limit .start t =
      (Fragment.enter limit .result [] .operand).bind fun _ =>
        Fragment.pushOperand limit .result [] t := by
    cases t with
    | word w => exact absurd rfl (hw w)
    | symbol symbol =>
      cases symbol with
      | semicolon => exact absurd rfl hs
      | _ => rfl
    | _ => rfl
  have hoperand : Fragment.push limit (.inside .result [] .operand) t =
      Fragment.pushOperand limit .result [] t := push_inside (by simp) t
  rw [henter] at hstart
  exact hstart.trans hoperand.symm

theorem push_item_close (limit : Nat) (purpose : Purpose) (frames : List Frame) (kind : ListKind)
    (reversed : List Expr) :
    Fragment.push limit (.inside purpose frames (.item kind reversed)) (.symbol kind.close) =
      .ok (.inside purpose frames (.afterOperand (kind.build reversed.reverse) 0)) :=
  (push_inside (by simp) _).trans (if_pos rfl)

section Verdict
variable {text : List Char}

theorem ofTokensWithin_eq_finish (h : Reads limit .start tokens f) :
    Statement.ofTokensWithin limit tokens = f.finish limit := by
  unfold Reads at h
  simp only [Statement.ofTokensWithin, h]

theorem parse_eq_finish (hscan : Token.scan text = .ok tokens)
    (hreads : Reads maxDepth .start tokens f) : Statement.parse text = f.finish maxDepth := by
  simp only [Statement.parse, hscan]
  exact ofTokensWithin_eq_finish hreads

/-- A text is malformed unless its tokens can be read. -/
theorem parse_malformed_or_eq_finish (text : List Char) :
    (∃ cause, Statement.parse text = .error (.malformed cause)) ∨
      ∃ tokens f, Token.scan text = .ok tokens ∧ Reads maxDepth .start tokens f := by
  cases hscan : Token.scan text with
  | error cause =>
    left
    refine ⟨cause, ?_⟩
    simp only [Statement.parse, hscan]
  | ok tokens =>
    cases hreads : tokens.foldlM (Fragment.push maxDepth) .start with
    | error cause =>
      left
      refine ⟨cause, ?_⟩
      simp only [Statement.parse, hscan, Statement.ofTokens, Statement.ofTokensWithin, hreads]
    | ok f => exact .inr ⟨tokens, f, rfl, hreads⟩

end Verdict

/-- The tokens lead to a fragment of which `P` holds, if the limit is not reported on the way. -/
def LeadsTo (limit : Nat) (f : Fragment) (tokens : List Token) (P : Fragment → Prop) : Prop :=
  tokens.foldlM (Fragment.push limit) f = .error .tooDeep ∨ ∃ g, Reads limit f tokens g ∧ P g

section LeadsTo
variable {P Q : Fragment → Prop} {t : Token}

theorem LeadsTo.nil (h : P f) : LeadsTo limit f [] P :=
  .inr ⟨f, .nil, h⟩

theorem LeadsTo.cons (hpush : Fragment.push limit f t = .ok g) (h : LeadsTo limit g tokens P) :
    LeadsTo limit f (t :: tokens) P := by
  rcases h with he | ⟨k, hreads, hk⟩
  · left
    rw [List.foldlM_cons, hpush]
    exact he
  · exact .inr ⟨k, .cons hpush hreads, hk⟩

theorem LeadsTo.enter {awaiting : Awaiting}
    (hpush : Fragment.push limit f t = Fragment.enter limit purpose frames awaiting)
    (h : LeadsTo limit (.inside purpose frames awaiting) tokens P) :
    LeadsTo limit f (t :: tokens) P := by
  unfold Fragment.enter at hpush
  split at hpush
  · exact .cons hpush h
  · left
    rw [List.foldlM_cons, hpush]
    rfl

theorem LeadsTo.append {back : List Token} (h : LeadsTo limit f tokens P)
    (hback : ∀ g, P g → LeadsTo limit g back Q) : LeadsTo limit f (tokens ++ back) Q := by
  rcases h with he | ⟨g, hreads, hg⟩
  · left
    rw [List.foldlM_append, he]
    rfl
  · rcases hback g hg with he | ⟨k, hmore, hk⟩
    · left
      unfold Reads at hreads
      rw [List.foldlM_append, hreads]
      exact he
    · exact .inr ⟨k, hreads.append hmore, hk⟩

theorem LeadsTo.imp (h : LeadsTo limit f tokens P) (hpq : ∀ g, P g → Q g) :
    LeadsTo limit f tokens Q := by
  have hend := h.append fun g hg => LeadsTo.nil (hpq g hg)
  rwa [List.append_nil] at hend

theorem LeadsTo.uncons (h : LeadsTo limit f (t :: tokens) P) :
    Fragment.push limit f t = .error .tooDeep ∨
      ∃ g, Fragment.push limit f t = .ok g ∧ LeadsTo limit g tokens P := by
  unfold LeadsTo Reads at h
  rw [List.foldlM_cons] at h
  cases hpush : Fragment.push limit f t with
  | error cause =>
    rw [hpush] at h
    rcases h with he | ⟨g, hg, -⟩
    · exact .inl he
    · cases hg
  | ok g =>
    rw [hpush] at h
    exact .inr ⟨g, rfl, h⟩

theorem LeadsTo.push_ne_unexpected (h : LeadsTo limit f (t :: tokens) P) :
    Fragment.push limit f t ≠ .error (.unexpected t) := by
  intro hr
  rcases h.uncons with he | ⟨g, hg, -⟩
  · rw [hr] at he
    cases he
  · rw [hr] at hg
    cases hg

theorem LeadsTo.of_push_eq (heq : Fragment.push limit f t = Fragment.push limit g t)
    (h : LeadsTo limit g (t :: tokens) P) : LeadsTo limit f (t :: tokens) P := by
  unfold LeadsTo Reads at h ⊢
  rw [List.foldlM_cons] at h ⊢
  rw [heq]
  exact h

end LeadsTo

end PromptLoop.Script
