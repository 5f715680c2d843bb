import PromptLoop.Proofs.Script.Reading

set_option autoImplicit false

namespace PromptLoop.Script

/-- The text ends in a string that the next character may still close. -/
def EndsInString (text : List Char) : Prop :=
  ∃ s quote chars f, text.foldlM Scanner.push {} = .ok s ∧ s.piece = .string quote chars ∧
    Reads maxDepth .start (s.reversed.reverse ++ [.string ""]) f

/-- The text ends where only the limit on nesting stands in the way of an item. -/
def EndsAtLimit (text : List Char) : Prop :=
  ∃ tokens purpose frames kind reversed, Token.scan text = .ok tokens ∧
    Reads maxDepth .start tokens (.inside purpose frames (.item kind reversed)) ∧
    maxDepth < depth (.item kind reversed :: frames)

variable {limit : Nat} {f g : Fragment} {text : List Char} {cause : Malformed}

theorem finishAfter_ne_malformed (purpose : Purpose) (frames : List Frame) (e : Expr) :
    Fragment.finishAfter purpose frames e ≠ .error (.malformed cause) := by
  unfold Fragment.finishAfter
  split
  · exact nofun
  · exact nofun

theorem finish_malformed (h : f.finish limit = .error (.malformed cause)) :
    ∃ purpose frames kind reversed, f = .inside purpose frames (.item kind reversed) ∧
      limit < depth (.item kind reversed :: frames) := by
  cases f with
  | inside purpose frames awaiting =>
    cases awaiting with
    | item kind reversed =>
      refine ⟨purpose, frames, kind, reversed, rfl, ?_⟩
      by_cases hd : depth (.item kind reversed :: frames) ≤ limit
      · simp only [Fragment.finish, if_pos hd] at h
        cases h
      · exact Nat.lt_of_not_le hd
    | afterName name => exact absurd h (finishAfter_ne_malformed _ _ _)
    | afterOperand e steps => exact absurd h (finishAfter_ne_malformed _ _ _)
    | _ => cases h
  | _ => cases h

/-- At its end, nothing but the limit on nesting can make a text malformed. -/
theorem tooDeep_of_finish (h : f.finish limit = .error (.malformed cause)) : cause = .tooDeep := by
  obtain ⟨purpose, frames, kind, reversed, rfl, hdepth⟩ := finish_malformed h
  simp only [Fragment.finish, if_neg (Nat.not_le_of_lt hdepth)] at h
  cases h
  rfl

/-- Where one string may stand, any other may, and the text is not malformed if it ends there. -/
theorem push_string {x : String} (h : Fragment.push limit f (.string x) = .ok g) (y : String) :
    ∃ k, Fragment.push limit f (.string y) = .ok k ∧
      ∀ cause, k.finish limit ≠ .error (.malformed cause) := by
  have hoperand (purpose : Purpose) (frames : List Frame) :
      ∃ k, Fragment.pushOperand limit purpose frames (.string y) = .ok k ∧
        ∀ cause, k.finish limit ≠ .error (.malformed cause) :=
    ⟨_, rfl, fun _ => finishAfter_ne_malformed _ _ _⟩
  have henter {purpose : Purpose} {frames outer : List Frame} {awaiting : Awaiting}
      (he : ((Fragment.enter limit purpose frames awaiting).bind fun _ =>
        Fragment.pushOperand limit purpose outer (.string x)) = .ok g) :
      ∃ k, ((Fragment.enter limit purpose frames awaiting).bind fun _ =>
        Fragment.pushOperand limit purpose outer (.string y)) = .ok k ∧
          ∀ cause, k.finish limit ≠ .error (.malformed cause) := by
    cases hin : Fragment.enter limit purpose frames awaiting with
    | error cause =>
      rw [hin] at he
      cases he
    | ok inner => exact hoperand purpose outer
  cases f with
  | start => exact henter h
  | inside purpose frames awaiting =>
    cases awaiting with
    | afterName name =>
      cases purpose with
      | assign target declare => cases h
      | result => cases frames <;> cases h
    | operand =>
      rw [push_inside (by simp)]
      exact hoperand purpose frames
    | item kind reversed =>
      rw [push_inside (by simp)] at h ⊢
      simp only [Fragment.pushInside, reduceCtorEq, if_false] at h ⊢
      exact henter h
    | key reversed =>
      rw [push_inside (by simp)]
      exact ⟨_, rfl, nofun⟩
    | _ =>
      rw [push_inside (by simp)] at h
      cases h
  | _ => cases h

theorem EndsInString.helped (h : EndsInString text) :
    ∃ more, ∀ cause, Statement.parse (text ++ more) ≠ .error (.malformed cause) := by
  obtain ⟨⟨reversed, piece⟩, quote, chars, f, hfold, rfl, hreads⟩ := h
  obtain ⟨k, hfront, hback⟩ := hreads.split
  obtain ⟨k', hpush, hk'⟩ := push_string hback.push_of_singleton (String.ofList chars.reverse)
  have hquote : [quote].foldlM Scanner.push ⟨reversed, .string quote chars⟩ =
      .ok ⟨.string (String.ofList chars.reverse) :: reversed, .none⟩ :=
    (foldlM_singleton quote).trans (if_pos rfl)
  have hscan : Token.scan (text ++ [quote]) =
      .ok (reversed.reverse ++ [.string (String.ofList chars.reverse)]) := by
    rw [scan_append_of_foldlM hfold hquote, ← List.reverse_cons]
    rfl
  refine ⟨[quote], fun cause => ?_⟩
  rw [parse_eq_finish hscan (hfront.append (.cons hpush .nil))]
  exact hk' cause

theorem EndsAtLimit.helped (h : EndsAtLimit text) :
    ∃ more, ∀ cause, Statement.parse (text ++ more) ≠ .error (.malformed cause) := by
  obtain ⟨tokens, purpose, frames, kind, reversed, hscan, hreads, -⟩ := h
  obtain ⟨c, hc⟩ : ∃ c, single? c = some kind.close := by
    cases kind with
    | array => exact ⟨']', rfl⟩
    | call function => exact ⟨')', rfl⟩
  have hpush := push_item_close maxDepth purpose frames kind reversed
  refine ⟨['\n', c], fun cause => ?_⟩
  rw [parse_eq_finish (scan_append_single hscan hc) (hreads.append (.cons hpush .nil))]
  exact finishAfter_ne_malformed _ _ _

/-- If a longer text can be read, so can the text itself, or its last string is not closed yet. -/
theorem reads_of_longer (hline : text.getLast? = some '\n') {more : List Char}
    {tokens : List Token} (hscan : Token.scan (text ++ more) = .ok tokens)
    (hreads : Reads maxDepth .start tokens g) :
    EndsInString text ∨ ∃ front k, Token.scan text = .ok front ∧ Reads maxDepth .start front k := by
  obtain ⟨s, hfold, -⟩ := exists_of_bind ((Token.scan_append text more).symm.trans hscan)
  have hbreak : s.piece = .none ∨ (∃ quote chars, s.piece = .string quote chars) ∨
      s.piece.Spoiled := by
    obtain ⟨body, rfl⟩ := List.getLast?_eq_some_iff.1 hline
    obtain ⟨s₁, -, hlast⟩ := exists_of_foldlM_append hfold
    exact Scanner.push_newline ((foldlM_singleton _).symm.trans hlast)
  rcases hbreak with hnone | ⟨quote, chars, hstring⟩ | hspoiled
  · -- All tokens are complete, and they come first in the longer text.
    right
    obtain ⟨k, hfront⟩ := hreads.of_prefix (prefix_of_scan_append hfold hscan)
    have hend : s.finish = .ok s.reversed.reverse := by
      simp only [Scanner.finish, hnone]
    refine ⟨_, k, ?_, hfront⟩
    unfold Token.scan
    rw [hfold]
    exact hend
  · -- The open string is the next token, whatever it turns out to hold.
    left
    have hs : s.piece.InString := by
      rw [hstring]
      trivial
    obtain ⟨y, hy⟩ := string_of_scan_append hfold hs hscan
    obtain ⟨closed, hclosed⟩ := hreads.of_prefix hy
    obtain ⟨k, hfront, hlast⟩ := hclosed.split
    obtain ⟨f, hpush, -⟩ := push_string hlast.push_of_singleton ""
    exact ⟨s, quote, chars, f, hfold, hstring, hfront.append (.cons hpush .nil)⟩
  · exact absurd hscan (scan_append_ne_ok hfold hspoiled)

/-- A text that ends in a line break and is malformed stays malformed whatever follows, unless it
ends in a string that may still be closed or in front of an item that would be too deep. -/
theorem malformed_forever_iff (hline : text.getLast? = some '\n')
    (h : Statement.parse text = .error (.malformed cause)) :
    (∀ more, ∃ cause', Statement.parse (text ++ more) = .error (.malformed cause')) ↔
      ¬ EndsInString text ∧ ¬ EndsAtLimit text := by
  constructor
  · intro hall
    have hstays (hhelped : ∃ more, ∀ cause,
        Statement.parse (text ++ more) ≠ .error (.malformed cause)) : False := by
      obtain ⟨more, hmore⟩ := hhelped
      obtain ⟨cause', hcause⟩ := hall more
      exact hmore cause' hcause
    exact ⟨fun hs => hstays hs.helped, fun hl => hstays hl.helped⟩
  · rintro ⟨hstring, hlimit⟩ more
    rcases parse_malformed_or_eq_finish (text ++ more) with hbad | ⟨tokens, g, hscan, hreads⟩
    · exact hbad
    · -- The text itself can be read, so it is malformed for what is missing at its end.
      exfalso
      rcases reads_of_longer hline hscan hreads with hs | ⟨front, k, hfront, hk⟩
      · exact hstring hs
      · rw [parse_eq_finish hfront hk] at h
        obtain ⟨purpose, frames, kind, reversed, rfl, hdepth⟩ := finish_malformed h
        exact hlimit ⟨front, purpose, frames, kind, reversed, hfront, hk, hdepth⟩

theorem two_names_malformed_forever :
    ['a', ' ', 'b', '\n'].getLast? = some '\n' ∧
      Statement.parse ['a', ' ', 'b', '\n'] = .error (.malformed (.unexpected (.word "b"))) ∧
      ∀ more, ∃ cause,
        Statement.parse (['a', ' ', 'b', '\n'] ++ more) = .error (.malformed cause) := by
  have hparse : Statement.parse ['a', ' ', 'b', '\n'] =
      .error (.malformed (.unexpected (.word "b"))) := rfl
  have hfold : ['a', ' ', 'b', '\n'].foldlM Scanner.push {} =
      .ok ⟨[.word "b", .word "a"], .none⟩ := rfl
  have hscan : Token.scan ['a', ' ', 'b', '\n'] = .ok [.word "a", .word "b"] := rfl
  refine ⟨rfl, hparse, (malformed_forever_iff rfl hparse).2 ⟨?_, ?_⟩⟩
  · rintro ⟨s, quote, chars, f, hs, hstring, -⟩
    rw [hfold] at hs
    cases hs
    cases hstring
  · rintro ⟨tokens, purpose, frames, kind, reversed, htokens, hreads, -⟩
    rw [hscan] at htokens
    cases htokens
    cases hreads

def fault? (text : List Char) : Option SyntaxError :=
  match Statement.parse text with
  | .ok _ => none
  | .error e => some e

theorem parse_eq_error {e : SyntaxError} (h : fault? text = some e) :
    Statement.parse text = .error e := by
  unfold fault? at h
  split at h
  · cases h
  · rename_i hparse
    rw [hparse, Option.some.inj h]

theorem exists_of_fault?_eq_none (h : fault? text = none) :
    ∃ s, Statement.parse text = .ok s := by
  unfold fault? at h
  split at h
  · rename_i s hparse
    exact ⟨s, hparse⟩
  · cases h

theorem malformed_texts_completed :
    (Statement.parse ['"', 'a', '\\', '\n'] = .error (.malformed .strayCharacter) ∧
      ∃ s, Statement.parse (['"', 'a', '\\', '\n'] ++ ['"']) = .ok s) ∧
    Statement.parse (List.replicate 127 '(' ++ ['[', '\n']) = .error (.malformed .tooDeep) ∧
      ∃ s, Statement.parse
        (List.replicate 127 '(' ++ ['[', '\n'] ++ (']' :: List.replicate 127 ')')) = .ok s := by
  refine ⟨⟨parse_eq_error ?_, exists_of_fault?_eq_none ?_⟩, parse_eq_error ?_,
    exists_of_fault?_eq_none ?_⟩
  all_goals decide +kernel

end PromptLoop.Script
