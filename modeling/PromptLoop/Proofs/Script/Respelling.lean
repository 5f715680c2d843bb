import PromptLoop.Proofs.Script.LineBreaks
import PromptLoop.Proofs.Script.Untimed

set_option autoImplicit false

namespace PromptLoop.Script

def Token.shape : Token → Token
  | .number (some _) => .number (some .zero)
  | t => t

def Frame.shape : Frame → Frame
  | .group => .group
  | .item kind _ => .item kind []
  | .entry _ _ => .entry [] ""
  | .position _ steps => .position (.literal .null) steps
  | .unary op => .unary op
  | .chain _ op length => .chain (.literal .null) op length

def Awaiting.shape : Awaiting → Awaiting
  | .operand => .operand
  | .item kind _ => .item kind []
  | .key _ => .key []
  | .colon _ _ => .colon [] ""
  | .member _ steps => .member (.literal .null) steps
  | .afterName name => .afterName name
  | .afterOperand _ steps => .afterOperand (.literal .null) steps

def Fragment.shape : Fragment → Fragment
  | .inside purpose frames awaiting => .inside purpose (frames.map Frame.shape) awaiting.shape
  | .closed _ => .closed .empty
  | f => f

@[simp] theorem Frame.shape_levels (frame : Frame) : frame.shape.levels = frame.levels := by
  cases frame <;> rfl

@[simp] theorem Awaiting.shape_levels (awaiting : Awaiting) :
    awaiting.shape.levels = awaiting.levels := by
  cases awaiting <;> rfl

@[simp] theorem depth_shape (frames : List Frame) :
    depth (frames.map Frame.shape) = depth frames := by
  induction frames with
  | nil => rfl
  | cons frame rest ih => simp only [List.map_cons, depth_cons, Frame.shape_levels, ih]

/-- Both are refused, or they have the same shape. -/
def Alike (x y : Except Malformed Fragment) : Prop :=
  x.toOption.map Fragment.shape = y.toOption.map Fragment.shape

section Shapes
variable (limit level : Nat) (purpose : Purpose) (e e' : Expr) (frames : List Frame)

@[simp] theorem shape_shape :
    (frames.map Frame.shape).map Frame.shape = frames.map Frame.shape := by
  rw [List.map_map]
  exact List.map_congr_left fun frame _ => by cases frame <;> rfl

theorem reduce_shape :
    (reduce level e' (frames.map Frame.shape)).2 = (reduce level e frames).2.map Frame.shape := by
  induction frames generalizing e e' with
  | nil => rfl
  | cons frame rest ih =>
    cases frame with
    | unary op => exact ih _ _
    | chain left op length =>
      simp only [List.map_cons, Frame.shape, reduce]
      split
      · exact ih _ _
      · rfl
    | _ => rfl

theorem reduceAll_shape :
    (reduceAll e' (frames.map Frame.shape)).2 = (reduceAll e frames).2.map Frame.shape := by
  induction frames generalizing e e' with
  | nil => rfl
  | cons frame rest ih =>
    cases frame with
    | unary op => exact ih _ _
    | chain left op length => exact ih _ _
    | _ => rfl

theorem extendChain_shape (op : BinaryOp) :
    (extendChain op e' (frames.map Frame.shape)).map Frame.shape =
      (extendChain op e frames).map Frame.shape := by
  have hr := reduce_shape op.level e e' frames
  unfold extendChain
  generalize reduce op.level e frames = r at hr
  generalize reduce op.level e' (frames.map Frame.shape) = r' at hr
  obtain ⟨x, inner⟩ := r
  obtain ⟨x', inner'⟩ := r'
  cases hr
  cases inner with
  | nil => rfl
  | cons frame rest =>
    cases frame with
    | chain left previous length =>
      simp only [List.map_cons, Frame.shape]
      split <;> simp only [List.map_cons, Frame.shape, shape_shape]
    | _ => simp only [List.map_cons, Frame.shape, shape_shape]

theorem inside_alike {frames frames' : List Frame} {awaiting awaiting' : Awaiting}
    (hf : frames.map Frame.shape = frames'.map Frame.shape)
    (ha : awaiting.shape = awaiting'.shape) :
    Alike (.ok (.inside purpose frames awaiting)) (.ok (.inside purpose frames' awaiting')) := by
  simp only [Alike, Except.toOption, Option.map_some, Fragment.shape, hf, ha]

theorem operand_alike {frames frames' : List Frame}
    (hf : frames.map Frame.shape = frames'.map Frame.shape) (e e' : Expr) (steps : Nat) :
    Alike (.ok (.inside purpose frames (.afterOperand e steps)))
      (.ok (.inside purpose frames' (.afterOperand e' steps))) :=
  inside_alike purpose hf rfl

theorem enter_alike {frames frames' : List Frame} {awaiting awaiting' : Awaiting}
    (hf : frames.map Frame.shape = frames'.map Frame.shape)
    (ha : awaiting.shape = awaiting'.shape) :
    Alike (Fragment.enter limit purpose frames awaiting)
      (Fragment.enter limit purpose frames' awaiting') := by
  have hdepth : depth frames = depth frames' := by
    rw [← depth_shape frames, hf, depth_shape]
  have hlevels : awaiting.levels = awaiting'.levels := by
    rw [← awaiting.shape_levels, ha, awaiting'.shape_levels]
  unfold Fragment.enter
  rw [hdepth, hlevels]
  split
  · exact inside_alike purpose hf ha
  · rfl

theorem pushOperand_alike (t : Token) :
    Alike (Fragment.pushOperand limit purpose (frames.map Frame.shape) t.shape)
      (Fragment.pushOperand limit purpose frames t) := by
  have hinside {awaiting awaiting' : Awaiting} (ha : awaiting.shape = awaiting'.shape) :=
    inside_alike purpose (shape_shape frames) ha
  have henter {frame : Frame} (hframe : frame.shape = frame) :
      Alike (Fragment.enter limit purpose (frame :: frames.map Frame.shape) .operand)
        (Fragment.enter limit purpose (frame :: frames) .operand) :=
    enter_alike limit purpose (by rw [List.map_cons, List.map_cons, shape_shape]) rfl
  cases t with
  | number x =>
    simp only [Fragment.pushOperand]
    cases x <;> exact operand_alike purpose (shape_shape frames) _ _ 0
  | string s => exact hinside rfl
  | word w =>
    simp only [Token.shape, Fragment.pushOperand]
    split
    · exact hinside rfl
    · split
      · rfl
      · exact hinside rfl
  | symbol symbol =>
    cases symbol with
    | minus => exact henter rfl
    | bang => exact henter rfl
    | openParen => exact henter rfl
    | openBracket => exact hinside rfl
    | openBrace => exact hinside rfl
    | _ => rfl

theorem pushAfter_alike (steps : Nat) (t : Token) :
    Alike (Fragment.pushAfter limit purpose (frames.map Frame.shape) e' steps t.shape)
      (Fragment.pushAfter limit purpose frames e steps t) := by
  cases t with
  | number x => cases x <;> rfl
  | string s => rfl
  | word w => rfl
  | symbol symbol =>
    have hchain (op : BinaryOp) := enter_alike limit purpose (extendChain_shape e e' frames op)
      (rfl : Awaiting.operand.shape = _)
    have hall := reduceAll_shape e e' frames
    cases symbol with
    | dot => exact enter_alike limit purpose (shape_shape frames) rfl
    | openBracket =>
      exact enter_alike limit purpose (shape_shape (.position e steps :: frames)) rfl
    | plus | minus | star | slash | percent | equal | notEqual | less | lessEqual | greater
    | greaterEqual | both | either => exact hchain _
    | _ =>
      -- What comes of a bracket, a comma or a semicolon is up to the innermost open bracket.
      simp only [Token.shape, Fragment.pushAfter, BinaryOp.ofSymbol?]
      generalize reduceAll e frames = r at hall ⊢
      generalize reduceAll e' (frames.map Frame.shape) = r' at hall ⊢
      obtain ⟨x, inner⟩ := r
      obtain ⟨x', inner'⟩ := r'
      cases hall
      cases inner with
      | nil => rfl
      | cons frame rest =>
        have hrest := shape_shape rest
        cases frame with
        | item kind reversed =>
          cases kind <;> first
            | rfl
            | exact operand_alike purpose hrest _ _ _
            | exact inside_alike purpose hrest rfl
        | _ =>
          first
            | rfl
            | exact operand_alike purpose hrest _ _ _
            | exact inside_alike purpose hrest rfl

theorem shape_eq_symbol {t : Token} {symbol : Symbol} :
    t.shape = .symbol symbol ↔ t = .symbol symbol := by
  cases t with
  | number x => cases x <;> simp [Token.shape]
  | _ => rfl

theorem entered_alike (t : Token) :
    Alike ((Fragment.enter limit purpose (frames.map Frame.shape) .operand).bind fun _ =>
        Fragment.pushOperand limit purpose (frames.map Frame.shape) t.shape)
      ((Fragment.enter limit purpose frames .operand).bind fun _ =>
        Fragment.pushOperand limit purpose frames t) := by
  unfold Fragment.enter
  rw [depth_shape]
  split
  · exact pushOperand_alike limit purpose frames t
  · rfl

theorem pushInside_alike (awaiting : Awaiting) (t : Token) :
    Alike (Fragment.pushInside limit purpose (frames.map Frame.shape) awaiting.shape t.shape)
      (Fragment.pushInside limit purpose frames awaiting t) := by
  have hsame := shape_shape frames
  cases awaiting with
  | operand => exact pushOperand_alike limit purpose frames t
  | item kind reversed =>
    simp only [Fragment.pushInside, Awaiting.shape, shape_eq_symbol]
    split
    · exact operand_alike purpose hsame _ _ 0
    · exact entered_alike limit purpose (.item kind reversed :: frames) t
  | key reversed =>
    cases t with
    | number x => cases x <;> exact inside_alike purpose hsame rfl
    | string s => exact inside_alike purpose hsame rfl
    | word w => exact inside_alike purpose hsame rfl
    | symbol symbol =>
      cases symbol with
      | closeBrace => exact operand_alike purpose hsame _ _ 0
      | _ => rfl
  | colon reversed key =>
    simp only [Fragment.pushInside, Awaiting.shape, shape_eq_symbol]
    split
    · exact enter_alike limit purpose (shape_shape (.entry reversed key :: frames)) rfl
    · rfl
  | member target steps =>
    cases t with
    | number x => cases x <;> rfl
    | word w => exact operand_alike purpose hsame _ _ _
    | _ => rfl
  | afterName name =>
    simp only [Fragment.pushInside, Awaiting.shape, shape_eq_symbol]
    split
    · exact inside_alike purpose hsame rfl
    · exact pushAfter_alike limit purpose _ _ frames 0 t
  | afterOperand e steps => exact pushAfter_alike limit purpose _ _ frames steps t

end Shapes

/-- The parser goes on with a token as it would with any other finite number in its place, and
whatever numbers it has read. -/
theorem push_alike (limit : Nat) (f : Fragment) (t : Token) :
    Alike (Fragment.push limit f.shape t.shape) (Fragment.push limit f t) := by
  cases f with
  | start =>
    have hentered := entered_alike limit .result [] t
    cases t with
    | number x => cases x <;> exact hentered
    | string s => rfl
    | word w => rfl
    | symbol symbol => rfl
  | keyword v =>
    simp only [Fragment.push, Fragment.shape, shape_eq_symbol]
    split
    · rfl
    · exact pushAfter_alike limit .result _ _ [] 0 t
  | declaration =>
    cases t with
    | number x => cases x <;> rfl
    | _ => rfl
  | declared name =>
    simp only [Fragment.push, Fragment.shape, shape_eq_symbol]
    split
    · rfl
    · rfl
  | closed s => rfl
  | inside purpose frames awaiting =>
    have hinside := pushInside_alike limit purpose frames awaiting t
    have hassign (name : String) : Alike
        (if t.shape = .symbol .assign then Fragment.enter limit (.assign name false) [] .operand
        else Fragment.pushInside limit .result [] (.afterName name) t.shape)
        (if t = .symbol .assign then Fragment.enter limit (.assign name false) [] .operand
        else Fragment.pushInside limit .result [] (.afterName name) t) := by
      simp only [shape_eq_symbol]
      split
      · rfl
      · exact pushInside_alike limit .result [] (.afterName name) t
    cases purpose with
    | assign name declare => exact hinside
    | result =>
      cases frames with
      | cons frame rest => exact hinside
      | nil =>
        cases awaiting with
        | afterName name => exact hassign name
        | _ => exact hinside

theorem foldlM_push_alike (limit : Nat) {f g : Fragment} {tokens tokens' : List Token}
    (hf : f.shape = g.shape) (ht : tokens.map Token.shape = tokens'.map Token.shape) :
    Alike (tokens.foldlM (Fragment.push limit) f) (tokens'.foldlM (Fragment.push limit) g) := by
  induction tokens generalizing f g tokens' with
  | nil =>
    cases tokens' with
    | nil => exact congrArg some hf
    | cons t' rest' => cases ht
  | cons t rest ih =>
    cases tokens' with
    | nil => cases ht
    | cons t' rest' =>
      obtain ⟨hhead, htail⟩ := List.cons.inj ht
      have hpush : Alike (Fragment.push limit f t) (Fragment.push limit g t') := by
        have hg := push_alike limit g t'
        rw [← hf, ← hhead] at hg
        exact (Eq.symm (push_alike limit f t)).trans hg
      rw [List.foldlM_cons, List.foldlM_cons]
      unfold Alike at hpush
      cases hnext : Fragment.push limit f t with
      | error cause =>
        cases hnext' : Fragment.push limit g t' with
        | error cause' => rfl
        | ok next' => simp [hnext, hnext', Except.toOption] at hpush
      | ok next =>
        cases hnext' : Fragment.push limit g t' with
        | error cause' => simp [hnext, hnext', Except.toOption] at hpush
        | ok next' =>
          have hsame : next.shape = next'.shape := by
            simpa [hnext, hnext', Except.toOption] using hpush
          exact ih hsame htail

inductive Standing where
  | unit
  | unfinished
  | malformed
deriving DecidableEq, Repr

def standing : Except SyntaxError Statement → Standing
  | .ok _ => .unit
  | .error .unfinished => .unfinished
  | .error (.malformed _) => .malformed

theorem finish_shape (limit : Nat) (f : Fragment) :
    standing (f.shape.finish limit) = standing (f.finish limit) := by
  have hafter (purpose : Purpose) (frames : List Frame) (e e' : Expr) :
      standing (Fragment.finishAfter purpose (frames.map Frame.shape) e') =
        standing (Fragment.finishAfter purpose frames e) := by
    have hall := reduceAll_shape e e' frames
    unfold Fragment.finishAfter
    generalize reduceAll e frames = r at hall
    generalize reduceAll e' (frames.map Frame.shape) = r' at hall
    obtain ⟨x, inner⟩ := r
    obtain ⟨x', inner'⟩ := r'
    cases hall
    cases inner <;> rfl
  cases f with
  | inside purpose frames awaiting =>
    cases awaiting with
    | afterName name => exact hafter purpose frames _ _
    | afterOperand e steps => exact hafter purpose frames _ _
    | item kind reversed =>
      have hdepth := depth_shape (.item kind reversed :: frames)
      simp only [List.map_cons, Frame.shape] at hdepth
      simp only [Fragment.shape, Awaiting.shape, Fragment.finish, hdepth]
    | _ => rfl
  | _ => rfl

theorem ofTokensWithin_standing {limit : Nat} {tokens tokens' : List Token}
    (h : tokens.map Token.shape = tokens'.map Token.shape) :
    standing (Statement.ofTokensWithin limit tokens) =
      standing (Statement.ofTokensWithin limit tokens') := by
  have hfold := foldlM_push_alike limit (f := .start) rfl h
  unfold Alike at hfold
  unfold Statement.ofTokensWithin
  cases hf : tokens.foldlM (Fragment.push limit) .start with
  | error cause =>
    cases hg : tokens'.foldlM (Fragment.push limit) .start with
    | error cause' => rfl
    | ok g => simp [hf, hg, Except.toOption] at hfold
  | ok f =>
    cases hg : tokens'.foldlM (Fragment.push limit) .start with
    | error cause' => simp [hf, hg, Except.toOption] at hfold
    | ok g =>
      have hsame : f.shape = g.shape := by simpa [hf, hg, Except.toOption] using hfold
      exact (finish_shape limit f).symm.trans (hsame ▸ finish_shape limit g)

def Respelled (text text' : List Char) : Prop :=
  ∃ tokens tokens', Token.scan text = .ok tokens ∧ Token.scan text' = .ok tokens' ∧
    tokens.map Token.shape = tokens'.map Token.shape

namespace Respelled
variable {text text' back back' : List Char}

theorem standing (h : Respelled text text') :
    Script.standing (Statement.parse text) = Script.standing (Statement.parse text') := by
  obtain ⟨tokens, tokens', hscan, hscan', hsame⟩ := h
  unfold Statement.parse
  rw [hscan, hscan']
  exact ofTokensWithin_standing hsame

/-- Lines can be respelled one by one. -/
theorem append {body body' : List Char} (h : Respelled (body ++ ['\n']) (body' ++ ['\n']))
    (hback : Respelled back back') :
    Respelled (body ++ ['\n'] ++ back) (body' ++ ['\n'] ++ back') := by
  obtain ⟨tokens, tokens', hscan, hscan', hsame⟩ := h
  obtain ⟨more, more', hmore, hmore', hsame'⟩ := hback
  refine ⟨tokens ++ more, tokens' ++ more', ?_, ?_, ?_⟩
  · rw [scan_append_line hscan, hmore]
    rfl
  · rw [scan_append_line hscan', hmore']
    rfl
  · rw [List.map_append, List.map_append, hsame, hsame']

end Respelled
end PromptLoop.Script
