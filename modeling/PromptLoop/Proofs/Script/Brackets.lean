import PromptLoop.Proofs.Script.Completion

set_option autoImplicit false

namespace PromptLoop.Script

def Token.isOpening : Token → Bool
  | .symbol .openParen | .symbol .openBracket | .symbol .openBrace => true
  | _ => false

def Token.isClosing : Token → Bool
  | .symbol .closeParen | .symbol .closeBracket | .symbol .closeBrace => true
  | _ => false

/-- By how much the opening brackets exceed the closing ones. -/
def unclosed (tokens : List Token) : Int :=
  tokens.countP Token.isOpening - tokens.countP Token.isClosing

def Token.turn : Token → Int
  | .symbol .openParen | .symbol .openBracket | .symbol .openBrace => 1
  | .symbol .closeParen | .symbol .closeBracket | .symbol .closeBrace => -1
  | _ => 0

@[simp] theorem unclosed_nil : unclosed [] = 0 := by
  simp [unclosed]

@[simp] theorem unclosed_append (front back : List Token) :
    unclosed (front ++ back) = unclosed front + unclosed back := by
  simp only [unclosed, List.countP_append]
  omega

theorem unclosed_singleton (t : Token) : unclosed [t] = t.turn := by
  cases t with
  | symbol s => cases s <;> rfl
  | _ => rfl

@[simp] theorem unclosed_cons (t : Token) (ts : List Token) :
    unclosed (t :: ts) = t.turn + unclosed ts := by
  rw [← unclosed_singleton]
  exact unclosed_append [t] ts

theorem BinaryOp.turn_sign (op : BinaryOp) : (Token.symbol op.sign).turn = 0 := by
  cases op <;> rfl

theorem UnaryOp.turn_sign (op : UnaryOp) : (Token.symbol op.sign).turn = 0 := by
  cases op <;> rfl

theorem KeyToken.turn_eq {t : Token} {key : String} (h : KeyToken t key) : t.turn = 0 := by
  cases h <;> rfl

/-- Every bracket of a derivable stretch of tokens is closed in it. -/
theorem Derives.unclosed_eq {ts : List Token} {part : Part} (h : Derives ts part) :
    unclosed ts = 0 := by
  induction h with
  | tighter h ih => exact ih
  | lastItem h ih => exact ih
  | binary op hl hr ihl ihr => simp [op.turn_sign, ihl, ihr]
  | unary op h ih => simp [op.turn_sign, ih]
  | member name h ih => simp [Token.turn, ih]
  | index ht hp iht ihp => simp [Token.turn, iht, ihp]
  | call hn h ih => simp [Token.turn, ih]
  | group h ih => simp [Token.turn, ih]
  | array h ih => simp [Token.turn, ih]
  | object h ih => simp [Token.turn, ih]
  | moreItems h hs ih ihs => simp [Token.turn, ih, ihs]
  | lastEntry hk h ih =>
    rw [unclosed_cons, hk.turn_eq]
    simp [Token.turn, ih]
  | moreEntries hk h hs ih ihs =>
    rw [unclosed_cons, hk.turn_eq]
    simp [Token.turn, ih, ihs]
  | _ => rfl

def Frame.brackets : Frame → Nat
  | .group | .item _ _ | .entry _ _ | .position _ _ => 1
  | .unary _ | .chain _ _ _ => 0

def Awaiting.brackets : Awaiting → Nat
  | .item _ _ | .key _ | .colon _ _ => 1
  | _ => 0

def brackets (frames : List Frame) : Nat :=
  frames.foldr (fun frame n => n + frame.brackets) 0

def Fragment.brackets : Fragment → Nat
  | .inside _ frames awaiting => Script.brackets frames + awaiting.brackets
  | _ => 0

theorem brackets_cons (frame : Frame) (frames : List Frame) :
    brackets (frame :: frames) = brackets frames + frame.brackets := rfl

theorem ListKind.unclosed_opening (kind : ListKind) : unclosed kind.opening = 1 := by
  cases kind <;> rfl

theorem Purpose.unclosed_opening (purpose : Purpose) : unclosed purpose.opening = 0 := by
  cases purpose with
  | result => rfl
  | assign name declare => cases declare <;> rfl

theorem Opened.unclosed_eq {frames : List Frame} {ts : List Token} (h : Opened frames ts) :
    unclosed ts = brackets frames := by
  induction h with
  | none => rfl
  | group h ih => simp [Token.turn, ih, brackets_cons, Frame.brackets]
  | item h hk hi ih =>
    simp [ih, brackets_cons, Frame.brackets, ListKind.unclosed_opening, hi.all.unclosed_eq]
  | entry h hi hk ih =>
    simp only [unclosed_append, unclosed_cons, hk.turn_eq]
    simp [Token.turn, ih, brackets_cons, Frame.brackets, hi.all.unclosed_eq]
  | position h ht ih => simp [Token.turn, ih, brackets_cons, Frame.brackets, ht.unclosed_eq]
  | unary op h ih => simp [op.turn_sign, ih, brackets_cons, Frame.brackets]
  | chain h hl ho ih =>
    simp [BinaryOp.turn_sign, ih, brackets_cons, Frame.brackets, hl.unclosed_eq]

theorem Awaiting.Spells.unclosed_eq {awaiting : Awaiting} {ts : List Token}
    (h : awaiting.Spells ts) : unclosed ts = awaiting.brackets := by
  cases h with
  | operand => rfl
  | item hk hi => simp [Awaiting.brackets, ListKind.unclosed_opening, hi.all.unclosed_eq]
  | key hi => simp [Token.turn, Awaiting.brackets, hi.all.unclosed_eq]
  | colon hi hk =>
    simp only [unclosed_append, unclosed_cons, hk.turn_eq]
    simp [Token.turn, Awaiting.brackets, hi.all.unclosed_eq]
  | member ht => simp [Token.turn, Awaiting.brackets, ht.unclosed_eq]
  | afterName hn => rfl
  | afterOperand h => exact h.unclosed_eq

theorem DerivesStatement.unclosed_eq {ts : List Token} {s : Statement}
    (h : DerivesStatement ts s) : unclosed ts = 0 := by
  cases h with
  | empty => rfl
  | declaration hn h => simp [Token.turn, h.unclosed_eq]
  | assignment hn h => simp [Token.turn, h.unclosed_eq]
  | expression h => exact h.unclosed_eq

theorem Fragment.Spells.unclosed_eq {f : Fragment} {ts : List Token} (h : f.Spells ts) :
    unclosed ts = f.brackets := by
  cases h with
  | start => rfl
  | keyword hv => rfl
  | declaration => rfl
  | declared hn => rfl
  | @inside purpose frames awaiting front back hp hf ha =>
    simp [Fragment.brackets, purpose.unclosed_opening, hf.unclosed_eq, ha.unclosed_eq]
  | closed h => simp [Token.turn, Fragment.brackets, h.unclosed_eq]

variable {limit : Nat} {f g : Fragment} {tokens front : List Token}

/-- Every bracket around an expression counts a level, and so does the expression. -/
theorem brackets_lt_depth (frames : List Frame) : brackets frames < depth frames := by
  induction frames with
  | nil => exact Nat.one_pos
  | cons frame frames ih =>
    have hframe : frame.brackets ≤ frame.levels := by
      cases frame <;> simp [Frame.brackets, Frame.levels]
    rw [brackets_cons, depth_cons]
    omega

theorem Fragment.Fits.brackets_le (h : f.Fits limit) : f.brackets ≤ limit := by
  cases f with
  | inside purpose frames awaiting =>
    obtain ⟨-, hdepth, -⟩ := h
    have hframes := brackets_lt_depth frames
    have hawaiting : awaiting.brackets ≤ 1 := by
      cases awaiting <;> simp [Awaiting.brackets]
    simp only [Fragment.brackets]
    omega
  | _ => exact Nat.zero_le limit

/-- Tokens that can be read leave no more brackets open than there are levels. -/
theorem Reads.unclosed_le (hl : 0 < limit) (h : Reads limit .start tokens f) :
    unclosed tokens ≤ limit := by
  have hspells : f.Spells tokens := Fragment.foldlM_push_spells tokens .start h
  have hstart : Fragment.start.Fits limit := trivial
  have hfits := Fragment.foldlM_push_fits hl tokens hstart h
  rw [hspells.unclosed_eq]
  exact_mod_cast hfits.brackets_le

theorem Reads.unclosed_prefix_le (hl : 0 < limit) (h : Reads limit .start tokens f)
    (hfront : front <+: tokens) : unclosed front ≤ limit := by
  obtain ⟨g, hreads⟩ := h.of_prefix hfront
  exact hreads.unclosed_le hl

theorem malformed_of_unclosed (hl : 0 < limit) (hfront : front <+: tokens)
    (hopen : limit < unclosed front) :
    ∃ cause, Statement.ofTokensWithin limit tokens = .error (.malformed cause) := by
  unfold Statement.ofTokensWithin
  cases hfold : tokens.foldlM (Fragment.push limit) .start with
  | error cause => exact ⟨cause, rfl⟩
  | ok f =>
    have hreads : Reads limit .start tokens f := hfold
    have hle := hreads.unclosed_prefix_le hl hfront
    omega

/-- A beginning with more open brackets than there are levels makes tokens malformed, whatever
follows, so a text that is taken for unfinished has none. -/
theorem runaway_nesting_malformed :
    (∀ tokens front, front <+: tokens → (maxDepth : Int) < unclosed front →
      ∃ cause, Statement.ofTokens tokens = .error (.malformed cause)) ∧
    ∀ source, compile source = .incomplete →
      ∃ tokens, Token.scan source.toList = .ok tokens ∧
        ∀ front, front <+: tokens → unclosed front ≤ maxDepth := by
  constructor
  · intro tokens front hfront hopen
    exact malformed_of_unclosed (by decide) hfront hopen
  · intro source hincomplete
    obtain ⟨tokens, f, hscan, hreads, -⟩ :=
      reads_of_unfinished (unfinished_of_compile hincomplete)
    exact ⟨tokens, hscan, fun front hfront => hreads.unclosed_prefix_le (by decide) hfront⟩

theorem fifty_thousand_brackets_malformed :
    (maxDepth : Int) < unclosed (List.replicate 50000 (.symbol .openBracket)) ∧
      (∃ cause, Statement.ofTokens (List.replicate 50000 (.symbol .openBracket)) =
        .error (.malformed cause)) ∧
      compile "[(" = .incomplete ∧
      unclosed [.symbol .openBracket, .symbol .openParen] ≤ maxDepth := by
  have hopen : (maxDepth : Int) < unclosed (List.replicate 50000 (.symbol .openBracket)) := by
    generalize hn : 50000 = n
    have hcount : unclosed (List.replicate n (.symbol .openBracket)) = n := by
      simp [unclosed, List.countP_replicate, Token.isOpening, Token.isClosing]
    rw [hcount]
    simp only [maxDepth]
    omega
  have hincomplete : compile "[(" = .incomplete := rfl
  refine ⟨hopen, runaway_nesting_malformed.1 _ _ (List.prefix_refl _) hopen, hincomplete, ?_⟩
  obtain ⟨tokens, hscan, hall⟩ := runaway_nesting_malformed.2 _ hincomplete
  have htokens : Token.scan "[(".toList = .ok [.symbol .openBracket, .symbol .openParen] := rfl
  cases htokens.symm.trans hscan
  exact hall _ (List.prefix_refl _)

def nestedKeys : Nat → List Token
  | 0 => [.symbol .openBrace]
  | n + 1 => .symbol .openBrace :: .word "a" :: .symbol .colon :: nestedKeys n

theorem unclosed_nestedKeys (n : Nat) : unclosed (nestedKeys n) = n + 1 := by
  induction n with
  | zero => rfl
  | succ n ih =>
    simp only [nestedKeys, unclosed_cons, Token.turn, ih]
    omega

theorem reads_nestedKeys (purpose : Purpose) (n : Nat) (frames : List Frame)
    (hd : depth frames + n ≤ limit) :
    ∃ inner, Reads limit (.inside purpose frames .operand) (nestedKeys n)
      (.inside purpose inner (.key [])) := by
  have hopen : Fragment.push limit (.inside purpose frames .operand) (.symbol .openBrace) =
      .ok (.inside purpose frames (.key [])) := push_inside (by simp) _
  induction n generalizing frames with
  | zero => exact ⟨frames, .cons hopen .nil⟩
  | succ n ih =>
    have hentry : depth (.entry [] "a" :: frames) + n ≤ limit := by
      simp only [depth_cons, Frame.levels]
      omega
    obtain ⟨inner, hreads⟩ := ih (.entry [] "a" :: frames) hentry (push_inside (by simp) _)
    have hkey : Fragment.push limit (.inside purpose frames (.key [])) (.word "a") =
        .ok (.inside purpose frames (.colon [] "a")) := push_inside (by simp) _
    have hcolon : Fragment.push limit (.inside purpose frames (.colon [] "a")) (.symbol .colon) =
        .ok (.inside purpose (.entry [] "a" :: frames) .operand) :=
      (push_inside (by simp) _).trans (if_pos (by simp only [Awaiting.levels]; omega))
    exact ⟨inner, .cons hopen (.cons hkey (.cons hcolon hreads))⟩

/-- For every limit some unfinished tokens leave as many brackets open as there are levels. -/
theorem unclosed_attained (hl : 0 < limit) :
    ∃ tokens, Statement.ofTokensWithin limit tokens = .error .unfinished ∧
      unclosed tokens = limit := by
  have hd : depth [] + (limit - 1) ≤ limit := by
    simp only [depth, List.foldr_nil]
    omega
  obtain ⟨inner, hreads⟩ := reads_nestedKeys .result (limit - 1) [] hd
  have hstart : Reads limit .start (nestedKeys (limit - 1)) (.inside .result inner (.key [])) := by
    have hfirst := push_start hl (t := .symbol .openBrace) (by simp) (by simp)
    generalize limit - 1 = n at hreads ⊢
    cases n with
    | zero => exact hreads.of_push_eq hfirst
    | succ n => exact hreads.of_push_eq hfirst
  refine ⟨nestedKeys (limit - 1), ofTokensWithin_eq_finish hstart, ?_⟩
  rw [unclosed_nestedKeys]
  omega

end PromptLoop.Script
