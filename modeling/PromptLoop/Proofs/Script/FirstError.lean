import PromptLoop.Proofs.Script.Finality
import PromptLoop.Script.Evaluator

set_option autoImplicit false

namespace PromptLoop.Script

/-- The tokens in front can be read, but the next one cannot follow them. -/
def Offends (limit : Nat) (front : List Token) (t : Token) (cause : Malformed) : Prop :=
  ∃ f, Reads limit .start front f ∧ Fragment.push limit f t = .error cause

variable {limit : Nat} {tokens front start : List Token} {t : Token} {cause cause' : Malformed}
  {f : Fragment}

theorem exists_offends (h : Statement.ofTokensWithin limit tokens = .error (.malformed cause))
    (hc : cause ≠ .tooDeep) :
    ∃ front t back, tokens = front ++ t :: back ∧ Offends limit front t cause := by
  cases hfold : tokens.foldlM (Fragment.push limit) .start with
  | ok f =>
    rw [ofTokensWithin_eq_finish hfold] at h
    exact absurd (tooDeep_of_finish h) hc
  | error cause' =>
    simp only [Statement.ofTokensWithin, hfold] at h
    cases h
    obtain ⟨front, t, back, f, htokens, hfront, hpush⟩ := exists_of_foldlM_error hfold
    exact ⟨front, t, back, htokens, f, hfront, hpush⟩

/-- Whatever follows the token at fault, it is what is reported. -/
theorem Offends.verdict (h : Offends limit front t cause) (more : List Token) :
    Statement.ofTokensWithin limit (front ++ t :: more) = .error (.malformed cause) := by
  obtain ⟨f, hfront, hpush⟩ := h
  have hfold : (front ++ t :: more).foldlM (Fragment.push limit) .start = .error cause := by
    have hrest : (t :: more).foldlM (Fragment.push limit) f = .error cause := by
      rw [List.foldlM_cons, hpush]
      rfl
    unfold Reads at hfront
    rw [List.foldlM_append, hfront]
    exact hrest
  simp only [Statement.ofTokensWithin, hfold]

/-- In front of the token at fault nothing is wrong but the depth of an item still to come. -/
theorem Offends.front_tooDeep (h : Offends limit front t cause) (hstart : start <+: front)
    (hbad : Statement.ofTokensWithin limit start = .error (.malformed cause')) :
    cause' = .tooDeep := by
  obtain ⟨f, hfront, -⟩ := h
  obtain ⟨g, hreads⟩ := hfront.of_prefix hstart
  rw [ofTokensWithin_eq_finish hreads] at hbad
  exact tooDeep_of_finish hbad

/-- Tokens that are malformed, and not for their depth, stay so with the same cause. It is that of
their first token that cannot follow, so no text whose tokens go on behind that one is reported
differently. -/
theorem first_error_stands {tokens : List Token} {cause : Malformed}
    (h : Statement.ofTokens tokens = .error (.malformed cause))
    (hm : cause.message ≠ tooDeepMessage) :
    (∀ more, Statement.ofTokens (tokens ++ more) = .error (.malformed cause)) ∧
      ∃ front t back, tokens = front ++ t :: back ∧
        (∀ start cause', start <+: front →
          Statement.ofTokens start = .error (.malformed cause') → cause' = .tooDeep) ∧
        (∀ more, Statement.ofTokens (front ++ t :: more) = .error (.malformed cause)) ∧
        ∀ source more, Token.scan source.toList = .ok (front ++ t :: more) →
          compile source = .fatal (.compile cause.message) := by
  have hc : cause ≠ .tooDeep := by
    rintro rfl
    exact hm rfl
  obtain ⟨front, t, back, rfl, hoffends⟩ := exists_offends h hc
  constructor
  · intro more
    rw [List.append_assoc]
    exact hoffends.verdict (back ++ more)
  · refine ⟨front, t, back, rfl, fun start cause' => hoffends.front_tooDeep,
      hoffends.verdict, ?_⟩
    intro source more hscan
    apply compile_malformed
    simp only [Statement.parse, hscan]
    exact hoffends.verdict more

/-- In `a + ) (` the closing parenthesis is reported. -/
theorem closing_parenthesis_stands :
    Statement.ofTokens [.word "a", .symbol .plus, .symbol .closeParen, .symbol .openParen] =
        .error (.malformed (.unexpected (.symbol .closeParen))) ∧
      (Malformed.unexpected (.symbol .closeParen)).message ≠ tooDeepMessage ∧
      ∀ more, Statement.ofTokens
        ([.word "a", .symbol .plus, .symbol .closeParen, .symbol .openParen] ++ more) =
          .error (.malformed (.unexpected (.symbol .closeParen))) := by
  have hbad : Statement.ofTokens
      [.word "a", .symbol .plus, .symbol .closeParen, .symbol .openParen] =
        .error (.malformed (.unexpected (.symbol .closeParen))) := rfl
  have hm : (Malformed.unexpected (.symbol .closeParen)).message ≠ tooDeepMessage := by decide
  exact ⟨hbad, hm, (first_error_stands hbad hm).1⟩

end PromptLoop.Script
