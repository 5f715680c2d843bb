import PromptLoop.Proofs.Script.Acceptance
import PromptLoop.Script.Evaluator

set_option autoImplicit false

namespace PromptLoop.Script

def Frame.closing : Frame → List Symbol
  | .group => [.closeParen]
  | .item kind _ => [kind.close]
  | .entry _ _ => [.closeBrace]
  | .position _ _ => [.closeBracket]
  | .unary _ => []
  | .chain _ _ _ => []

def closing (frames : List Frame) : List Token :=
  (frames.flatMap Frame.closing).map .symbol

def Awaiting.filling : Awaiting → List Token
  | .operand => [.word "a"]
  | .item kind _ => [.symbol kind.close]
  | .key _ => [.symbol .closeBrace]
  | .colon _ _ => [.symbol .colon, .word "a", .symbol .closeBrace]
  | .member _ _ => [.word "a"]
  | .afterName _ => []
  | .afterOperand _ _ => []

def Fragment.completion : Fragment → List Token
  | .declaration => [.word "a", .symbol .assign, .word "a"]
  | .declared _ => [.symbol .assign, .word "a"]
  | .inside _ frames awaiting => awaiting.filling ++ closing frames
  | _ => []

variable {limit : Nat} {purpose : Purpose} {frames inner : List Frame} {awaiting : Awaiting}
  {e x : Expr} {steps : Nat} {f : Fragment}

def Ends (limit : Nat) (purpose : Purpose) (f : Fragment) (tokens : List Token) : Prop :=
  ∃ g e, Reads limit f tokens g ∧ g.finish limit = .ok (purpose.build e)

theorem Ends.append {g : Fragment} {front back : List Token} (hfront : Reads limit f front g)
    (hback : Ends limit purpose g back) : Ends limit purpose f (front ++ back) := by
  obtain ⟨k, e, hreads, hfinish⟩ := hback
  exact ⟨k, e, hfront.append hreads, hfinish⟩

theorem closing_ne {frame : Frame} {symbol : Symbol} (h : frame.closing = [symbol]) :
    Token.symbol symbol ≠ .symbol .openParen ∧ Token.symbol symbol ≠ .symbol .assign := by
  cases frame with
  | item kind reversed =>
    cases h
    cases kind <;> simp [ListKind.close]
  | unary op => cases h
  | chain left op length => cases h
  | _ =>
    cases h
    simp

theorem pushAfter_closing (limit : Nat) (purpose : Purpose) {frame : Frame} {symbol : Symbol}
    (hall : reduceAll x inner = (e, frame :: frames)) (h : frame.closing = [symbol]) :
    ∃ whole taken, Fragment.pushAfter limit purpose inner x steps (.symbol symbol) =
      .ok (.inside purpose frames (.afterOperand whole taken)) := by
  cases frame with
  | group =>
    cases h
    refine ⟨e, 0, ?_⟩
    simp only [Fragment.pushAfter, BinaryOp.ofSymbol?, hall]
  | item kind reversed =>
    cases h
    exact ⟨kind.build (e :: reversed).reverse, 0, pushAfter_close limit purpose steps hall⟩
  | entry reversed key =>
    cases h
    refine ⟨.object ((key, e) :: reversed).reverse, 0, ?_⟩
    simp only [Fragment.pushAfter, BinaryOp.ofSymbol?, hall]
  | position target taken =>
    cases h
    refine ⟨.index target e, taken + 1, ?_⟩
    simp only [Fragment.pushAfter, BinaryOp.ofSymbol?, hall]
  | unary op => cases h
  | chain left op length => cases h

/-- Behind an operand the closing brackets are all that is missing. The prefix operators and chains
in front of it end with the bracket around them, so the induction is on the constructs around the
operand as they are once those have ended. -/
theorem ends_closing (hr : awaiting.read? = some (x, steps))
    (hall : reduceAll x inner = reduceAll e frames) :
    Ends limit purpose (.inside purpose inner awaiting) (closing frames) := by
  induction frames generalizing e x steps inner awaiting with
  | nil => exact ⟨_, e, .nil, finish_read hr hall⟩
  | cons frame frames ih =>
    have hbracket {symbol : Symbol} (hclose : frame.closing = [symbol])
        (hall : reduceAll x inner = (e, frame :: frames)) :
        Ends limit purpose (.inside purpose inner awaiting) (closing (frame :: frames)) := by
      obtain ⟨hparen, hassign⟩ := closing_ne hclose
      obtain ⟨whole, taken, hafter⟩ := pushAfter_closing limit purpose hall hclose
      have hpush := (push_read hr hparen hassign).trans hafter
      have htokens : closing (frame :: frames) = [.symbol symbol] ++ closing frames := by
        simp only [closing, List.flatMap_cons, hclose, List.map_append, List.map_cons, List.map_nil]
      rw [htokens]
      exact .append (.cons hpush .nil) (ih (e := whole) rfl rfl)
    cases frame with
    | unary op => exact ih hr hall
    | chain left op length => exact ih hr hall
    | group => exact hbracket rfl hall
    | item kind reversed => exact hbracket rfl hall
    | entry reversed key => exact hbracket rfl hall
    | position target taken => exact hbracket rfl hall

theorem push_operand_name (limit : Nat) (purpose : Purpose) (frames : List Frame) :
    Fragment.push limit (.inside purpose frames .operand) (.word "a") =
      .ok (.inside purpose frames (.afterName "a")) := by
  have hname : isKeyword "a" = false := by decide
  rw [push_inside (by simp)]
  exact pushOperand_name limit hname purpose frames

theorem ends_filling (purpose : Purpose)
    (hcolon : ∀ reversed key, awaiting = .colon reversed key → depth frames < limit) :
    Ends limit purpose (.inside purpose frames awaiting) (awaiting.filling ++ closing frames) := by
  cases awaiting with
  | operand => exact .append (.cons (push_operand_name _ _ _) .nil) (ends_closing rfl rfl)
  | item kind reversed =>
    have hpush := push_item_close limit purpose frames kind reversed
    exact .append (.cons hpush .nil) (ends_closing rfl rfl)
  | key reversed =>
    have hpush : Fragment.push limit (.inside purpose frames (.key reversed))
        (.symbol .closeBrace) =
          .ok (.inside purpose frames (.afterOperand (.object reversed.reverse) 0)) :=
      push_inside (by simp) _
    exact .append (.cons hpush .nil) (ends_closing rfl rfl)
  | colon reversed key =>
    -- The value is the only thing that takes a level of its own.
    have hdepth : depth (.entry reversed key :: frames) + Awaiting.operand.levels ≤ limit := by
      have h := hcolon reversed key rfl
      simp only [depth_cons, Frame.levels, Awaiting.levels]
      omega
    have hpush : Fragment.push limit (.inside purpose frames (.colon reversed key))
        (.symbol .colon) = .ok (.inside purpose (.entry reversed key :: frames) .operand) :=
      (push_inside (by simp) _).trans (if_pos hdepth)
    show Ends limit purpose _
      ([.symbol .colon, .word "a"] ++ closing (.entry reversed key :: frames))
    exact .append (.cons hpush (.cons (push_operand_name _ _ _) .nil)) (ends_closing rfl rfl)
  | member target steps =>
    have hpush : Fragment.push limit (.inside purpose frames (.member target steps))
        (.word "a") =
          .ok (.inside purpose frames (.afterOperand (.member target "a") (steps + 1))) :=
      push_inside (by simp) _
    exact .append (.cons hpush .nil) (ends_closing rfl rfl)
  | afterName name => exact ends_closing rfl rfl
  | afterOperand e steps => exact ends_closing rfl rfl

/-- The text ends behind a key whose value would exceed the limit on nesting. -/
def Fragment.IsStuck (limit : Nat) : Fragment → Prop
  | .inside _ frames (.colon _ _) => limit ≤ depth frames
  | _ => False

theorem completion_ends {limit : Nat} {f : Fragment} (hl : 0 < limit)
    (h : f.finish limit = .error .unfinished) (hf : ¬ f.IsStuck limit) :
    ∃ g s, Reads limit f f.completion g ∧ g.finish limit = .ok s ∧ s ≠ .empty := by
  have hvalue (name : String) : Reads limit (.declared name) [.symbol .assign, .word "a"]
      (.inside (.assign name true) [] (.afterName "a")) := by
    have hpush : Fragment.push limit (.declared name) (.symbol .assign) =
        .ok (.inside (.assign name true) [] .operand) := if_pos hl
    exact .cons hpush (.cons (push_operand_name _ _ _) .nil)
  cases f with
  | declaration => exact ⟨_, .assign "a" (.name "a") true, .cons rfl (hvalue "a"), rfl, nofun⟩
  | declared name => exact ⟨_, .assign name (.name "a") true, hvalue name, rfl, nofun⟩
  | inside purpose frames awaiting =>
    have hcolon : ∀ reversed key, awaiting = .colon reversed key → depth frames < limit := by
      rintro reversed key rfl
      exact Nat.lt_of_not_le hf
    obtain ⟨g, e, hreads, hfinish⟩ := ends_filling purpose hcolon
    refine ⟨g, purpose.build e, hreads, hfinish, ?_⟩
    cases purpose with
    | result => exact nofun
    | assign name declare => exact nofun
  | start => cases h
  | keyword v => cases h
  | closed s => cases h

theorem Fragment.IsStuck.finish {f : Fragment} (hf : f.IsStuck limit) :
    f.finish limit = .error .unfinished := by
  cases f with
  | inside purpose frames awaiting =>
    cases awaiting with
    | colon reversed key => rfl
    | _ => exact hf.elim
  | _ => exact hf.elim

theorem Fragment.IsStuck.push {f g : Fragment} (hf : f.IsStuck limit) (t : Token) :
    Fragment.push limit f t ≠ .ok g := by
  intro hpush
  cases f with
  | inside purpose frames awaiting =>
    cases awaiting with
    | colon reversed key =>
      rw [push_inside (by simp)] at hpush
      have hdepth : ¬ depth (.entry reversed key :: frames) + Awaiting.operand.levels ≤ limit := by
        have hle : limit ≤ depth frames := hf
        simp only [depth_cons, Frame.levels, Awaiting.levels]
        omega
      simp only [Fragment.pushInside, Fragment.enter, if_neg hdepth] at hpush
      split at hpush
      · cases hpush
      · cases hpush
    | _ => exact hf.elim
  | _ => exact hf.elim

def spelling (tokens : List Token) : List Char :=
  tokens.flatMap fun t => t.text.toList ++ [' ']

theorem foldlM_symbol (s : Symbol) (reversed : List Token) :
    (s.text.toList ++ [' ']).foldlM Scanner.push ⟨reversed, .none⟩ =
      .ok ⟨.symbol s :: reversed, .none⟩ := by
  cases s <;> rfl

theorem foldlM_name (reversed : List Token) :
    ['a', ' '].foldlM Scanner.push ⟨reversed, .none⟩ = .ok ⟨.word "a" :: reversed, .none⟩ := rfl

def Token.IsPlain (t : Token) : Prop :=
  t = .word "a" ∨ ∃ s, t = .symbol s

theorem Token.isPlain_name : (Token.word "a").IsPlain := .inl rfl

theorem Token.isPlain_symbol (s : Symbol) : (Token.symbol s).IsPlain := .inr ⟨s, rfl⟩

theorem foldlM_spelling (more reversed : List Token) (h : ∀ t ∈ more, t.IsPlain) :
    (spelling more).foldlM Scanner.push ⟨reversed, .none⟩ =
      .ok ⟨more.reverse ++ reversed, .none⟩ := by
  induction more generalizing reversed with
  | nil => rfl
  | cons t rest ih =>
    have hfirst : (t.text.toList ++ [' ']).foldlM Scanner.push ⟨reversed, .none⟩ =
        .ok ⟨t :: reversed, .none⟩ := by
      rcases h t List.mem_cons_self with rfl | ⟨s, rfl⟩
      · exact foldlM_name reversed
      · exact foldlM_symbol s reversed
    have hrest := ih (t :: reversed) fun u hu => h u (List.mem_cons_of_mem t hu)
    unfold spelling at hrest ⊢
    rw [List.flatMap_cons, List.foldlM_append, hfirst, List.reverse_cons, List.append_assoc]
    exact hrest

theorem scan_append_spelling {text : List Char} {tokens more : List Token}
    (h : Token.scan text = .ok tokens) (hmore : ∀ t ∈ more, t.IsPlain) :
    Token.scan (text ++ '\n' :: spelling more) = .ok (tokens ++ more) := by
  rw [List.append_cons, scan_append_of_foldlM (foldlM_newline_of_scan h)
    (foldlM_spelling more tokens.reverse hmore)]
  simp only [Scanner.finish, List.reverse_append, List.reverse_reverse]

theorem filling_plain (awaiting : Awaiting) : ∀ t ∈ awaiting.filling, t.IsPlain := by
  cases awaiting <;> simp [Awaiting.filling, Token.isPlain_name, Token.isPlain_symbol]

theorem closing_plain (frames : List Frame) : ∀ t ∈ closing frames, t.IsPlain := by
  intro t ht
  obtain ⟨s, -, rfl⟩ := List.mem_map.1 ht
  exact Token.isPlain_symbol s

theorem completion_plain (f : Fragment) : ∀ t ∈ f.completion, t.IsPlain := by
  cases f with
  | inside purpose frames awaiting =>
    exact List.forall_mem_append.2 ⟨filling_plain awaiting, closing_plain frames⟩
  | _ => simp [Fragment.completion, Token.isPlain_name, Token.isPlain_symbol]

theorem reads_of_unfinished {text : List Char} (h : Statement.parse text = .error .unfinished) :
    ∃ tokens f, Token.scan text = .ok tokens ∧ Reads maxDepth .start tokens f ∧
      f.finish maxDepth = .error .unfinished := by
  rcases parse_malformed_or_eq_finish text with ⟨cause, hbad⟩ | ⟨tokens, f, hscan, hreads⟩
  · rw [h] at hbad
    cases hbad
  · exact ⟨tokens, f, hscan, hreads, (parse_eq_finish hscan hreads).symm.trans h⟩

theorem parse_completion {text : List Char} {tokens : List Token} {f : Fragment}
    (hscan : Token.scan text = .ok tokens) (hreads : Reads maxDepth .start tokens f)
    (h : f.finish maxDepth = .error .unfinished) (hf : ¬ f.IsStuck maxDepth) :
    ∃ s, Statement.parse (text ++ '\n' :: spelling f.completion) = .ok s ∧ s ≠ .empty := by
  obtain ⟨g, s, hmore, hfinish, hs⟩ := completion_ends (by decide) h hf
  have hlonger := scan_append_spelling hscan (completion_plain f)
  exact ⟨s, (parse_eq_finish hlonger (hreads.append hmore)).trans hfinish, hs⟩

/-- Behind a key at the limit nothing can follow. -/
theorem parse_ne_ok_of_stuck {text more : List Char} {tokens : List Token} {f : Fragment}
    {s : Statement} (hscan : Token.scan text = .ok tokens)
    (hreads : Reads maxDepth .start tokens f) (hf : f.IsStuck maxDepth) :
    Statement.parse (text ++ '\n' :: more) ≠ .ok s := by
  intro hparse
  rcases parse_malformed_or_eq_finish (text ++ '\n' :: more) with
    ⟨cause, hbad⟩ | ⟨longer, g, hlonger, hg⟩
  · rw [hparse] at hbad
    cases hbad
  · rw [parse_eq_finish hlonger hg] at hparse
    rw [List.append_cons] at hlonger
    obtain ⟨back, rfl⟩ := prefix_of_scan_append (foldlM_newline_of_scan hscan) hlonger
    rw [List.reverse_reverse] at hg
    obtain ⟨k, hfront, hback⟩ := hg.split
    cases hreads.symm.trans hfront
    cases back with
    | nil =>
      cases hback
      rw [hf.finish] at hparse
      cases hparse
    | cons t rest =>
      obtain ⟨next, hpush, -⟩ := exists_of_foldlM_cons hback
      exact hf.push t hpush

/-- Only behind such a key is an unfinished text beyond help. -/
theorem unfinished_completable_iff {text : List Char}
    (h : Statement.parse text = .error .unfinished) :
    (∃ more s, Statement.parse (text ++ '\n' :: more) = .ok s ∧ s ≠ .empty) ↔
      ∀ tokens f, Token.scan text = .ok tokens → Reads maxDepth .start tokens f →
        ¬ f.IsStuck maxDepth := by
  constructor
  · rintro ⟨more, s, hparse, -⟩ tokens f hscan hreads hf
    exact parse_ne_ok_of_stuck hscan hreads hf hparse
  · intro hfree
    obtain ⟨tokens, f, hscan, hreads, hfinish⟩ := reads_of_unfinished h
    exact ⟨_, parse_completion hscan hreads hfinish (hfree tokens f hscan hreads)⟩

def Fragment.levels : Fragment → Nat
  | .inside _ frames awaiting => depth frames + awaiting.levels
  | _ => 0

theorem Fragment.IsStuck.le_levels {f : Fragment} (hf : f.IsStuck limit) : limit ≤ f.levels := by
  cases f with
  | inside purpose frames awaiting =>
    cases awaiting with
    | colon reversed key => exact hf
    | _ => exact hf.elim
  | _ => exact hf.elim

/-- No beginning of the tokens of a text uses up the levels of nesting. -/
def StaysBelowLimit (text : List Char) : Prop :=
  ∀ tokens front f, Token.scan text = .ok tokens → front <+: tokens →
    Reads maxDepth .start front f → f.levels < maxDepth

/-- An unfinished text below the limit on nesting is the beginning of a unit that is not empty. -/
theorem unfinished_completed {text : List Char} (h : Statement.parse text = .error .unfinished)
    (hbelow : StaysBelowLimit text) :
    ∃ more s, Statement.parse (text ++ more) = .ok s ∧ s ≠ .empty ∧
      compile (String.ofList (text ++ more)) = .ready s s.declaration? := by
  have hfree : ∀ tokens f, Token.scan text = .ok tokens → Reads maxDepth .start tokens f →
      ¬ f.IsStuck maxDepth := by
    intro tokens f hscan hreads hstuck
    have hlevels := hbelow tokens tokens f hscan (List.prefix_refl _) hreads
    exact Nat.not_le_of_lt hlevels hstuck.le_levels
  obtain ⟨more, s, hparse, hs⟩ := (unfinished_completable_iff h).2 hfree
  refine ⟨'\n' :: more, s, hparse, hs, ?_⟩
  simp only [compile, String.toList_ofList, hparse]

theorem open_list_completed :
    Statement.parse ['x', '=', '['] = .error .unfinished ∧ StaysBelowLimit ['x', '=', '['] ∧
      ∃ more s, Statement.parse (['x', '=', '['] ++ more) = .ok s ∧ s ≠ .empty ∧
        compile (String.ofList (['x', '=', '['] ++ more)) = .ready s s.declaration? := by
  have hparse : Statement.parse ['x', '=', '['] = .error .unfinished := rfl
  have hbelow : StaysBelowLimit ['x', '=', '['] := by
    intro tokens front f hscan hfront hreads
    have htokens : Token.scan ['x', '=', '['] =
        .ok [.word "x", .symbol .assign, .symbol .openBracket] := rfl
    rw [htokens] at hscan
    cases hscan
    simp only [List.prefix_cons_iff, List.prefix_nil] at hfront
    rcases hfront with rfl | ⟨_, rfl, rfl | ⟨_, rfl, rfl | ⟨_, rfl, rfl⟩⟩⟩
    all_goals
      cases hreads
      decide
  exact ⟨hparse, hbelow, unfinished_completed hparse hbelow⟩

end PromptLoop.Script
