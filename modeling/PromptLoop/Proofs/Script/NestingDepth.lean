import PromptLoop.Proofs.Script.DepthLimit
import PromptLoop.Script.Evaluator

set_option autoImplicit false

/-!
# How deep a parsed tree can be

The levels of a fragment are limited, but they are not the height of the tree. A chain gives its
levels back when it ends, and what comes next grows the tree above it: each of the six levels of
operators, and the postfix steps and prefix operators below them, can use all levels that are left.
`levelBound level r` bounds the operands of the operators of a level where `r` levels are left, and
the height of a whole expression is bounded by `levelBound 0`.
-/
namespace PromptLoop.Script

def primaryBound : Nat → Nat
  | 0 => 0
  | r + 1 => primaryBound r + 7 * r + 1

def levelBound (level r : Nat) : Nat :=
  primaryBound r + r + (6 - level) * r

theorem primaryBound_mono {r r' : Nat} (h : r ≤ r') : primaryBound r ≤ primaryBound r' := by
  induction h with
  | refl => exact Nat.le_refl _
  | step _ ih =>
    simp only [primaryBound]
    omega

theorem primaryBound_succ (r : Nat) : primaryBound (r + 1) = levelBound 0 r + 1 := by
  simp only [primaryBound, levelBound]
  omega

theorem levelBound_mono (level : Nat) {r r' : Nat} (h : r ≤ r') :
    levelBound level r ≤ levelBound level r' := by
  have hp := primaryBound_mono h
  have hm := Nat.mul_le_mul_left (6 - level) h
  simp only [levelBound]
  omega

theorem levelBound_anti {level level' : Nat} (h : level ≤ level') (r : Nat) :
    levelBound level' r ≤ levelBound level r := by
  have hm : (6 - level') * r ≤ (6 - level) * r := Nat.mul_le_mul_right r (by omega)
  simp only [levelBound]
  omega

theorem levelBound_pred {level : Nat} (h : level < 6) (r : Nat) :
    levelBound level r = levelBound (level + 1) r + r := by
  have hm : (6 - level) * r = (6 - (level + 1)) * r + r := by
    rw [← Nat.succ_mul]
    congr 1
    omega
  simp only [levelBound]
  omega

theorem levelBound_six (r : Nat) : levelBound 6 r = primaryBound r + r := by
  simp [levelBound]

theorem BinaryOp.level_lt (op : BinaryOp) : op.level < 6 := by
  cases op <;> decide

theorem depth_cons (frame : Frame) (frames : List Frame) :
    depth (frame :: frames) = depth frames + frame.levels := rfl

/-- The level of what stands behind the innermost open operator. -/
def operandLevel : List Frame → Nat
  | .unary _ :: _ => 6
  | .chain _ op _ :: _ => op.level + 1
  | _ => 0

theorem operandLevel_le (frames : List Frame) : operandLevel frames ≤ 6 := by
  unfold operandLevel
  split
  · exact Nat.le_refl 6
  · exact BinaryOp.level_lt _
  · exact Nat.zero_le 6

def ItemsFit (r : Nat) (items : List Expr) : Prop :=
  ∀ e ∈ items, e.height + 1 ≤ primaryBound r

def EntriesFit (r : Nat) (entries : List (String × Expr)) : Prop :=
  ∀ entry ∈ entries, entry.2.height + 1 ≤ primaryBound r

/-- What an open construct holds, where `r` levels are left around it. A chain stands on no operator
that binds its operands as tightly. -/
def Frame.Fits (r : Nat) (frames : List Frame) : Frame → Prop
  | .group => True
  | .item _ reversed => ItemsFit r reversed
  | .entry reversed _ => EntriesFit r reversed
  | .position target steps => target.height ≤ primaryBound r + steps
  | .unary _ => True
  | .chain left op length =>
    left.height + 1 ≤ levelBound (op.level + 1) r + length ∧ 1 ≤ length ∧
      operandLevel frames ≤ op.level

def FramesFit (limit : Nat) : List Frame → Prop
  | [] => depth [] ≤ limit
  | frame :: frames =>
    depth (frame :: frames) ≤ limit ∧ frame.Fits (limit - depth frames) frames ∧
      FramesFit limit frames

def Awaiting.Fits (r : Nat) : Awaiting → Prop
  | .operand => True
  | .item _ reversed => ItemsFit r reversed
  | .key reversed => EntriesFit r reversed
  | .colon reversed _ => EntriesFit r reversed
  | .member target steps => target.height ≤ primaryBound r + steps
  | .afterName _ => True
  | .afterOperand e steps => e.height ≤ primaryBound r + steps

def Fragment.Fits (limit : Nat) : Fragment → Prop
  | .inside _ frames awaiting =>
    FramesFit limit frames ∧ depth frames + awaiting.levels ≤ limit ∧
      awaiting.Fits (limit - depth frames)
  | .closed s => s.height ≤ levelBound 0 (limit - 1)
  | _ => True

variable {limit level : Nat} {e : Expr} {frames : List Frame}

theorem FramesFit.depth_le (h : FramesFit limit frames) : depth frames ≤ limit := by
  cases frames with
  | nil => exact h
  | cons frame frames => exact h.1

/-- An expression whose operators bind at least as tightly as `level` is complete behind the open
constructs. -/
structure Stands (limit level : Nat) (e : Expr) (frames : List Frame) : Prop where
  frames_fit : FramesFit limit frames
  height : e.height ≤ levelBound level (limit - depth frames)
  level : operandLevel frames ≤ level

theorem Stands.weaken {target : Nat} (h : Stands limit level e frames) (hl : target ≤ level)
    (ho : operandLevel frames ≤ target) : Stands limit target e frames :=
  ⟨h.frames_fit, Nat.le_trans h.height (levelBound_anti hl _), ho⟩

theorem Stands.unary {op : UnaryOp} (h : Stands limit level e (.unary op :: frames)) :
    Stands limit 6 (.unary op e) frames := by
  obtain ⟨⟨hdepth, -, hframes⟩, hheight, hlevel⟩ := h
  refine ⟨hframes, ?_, operandLevel_le frames⟩
  have hanti : levelBound level (limit - depth (.unary op :: frames)) ≤
      levelBound 6 (limit - depth (.unary op :: frames)) := levelBound_anti hlevel _
  rw [depth_cons] at hdepth hheight hanti
  simp only [Frame.levels] at hdepth hheight hanti
  have hmono : primaryBound (limit - (depth frames + 1)) ≤ primaryBound (limit - depth frames) :=
    primaryBound_mono (by omega)
  rw [levelBound_six] at hanti ⊢
  simp only [Expr.height]
  omega

/-- Ending an operator makes the tree as high as the operators of the chain, at most. -/
theorem Stands.binary_height {left : Expr} {op : BinaryOp} {length : Nat}
    (h : Stands limit level e (.chain left op length :: frames)) :
    (Expr.binary op left e).height ≤
      levelBound (op.level + 1) (limit - depth frames) + length := by
  obtain ⟨⟨hdepth, ⟨hleft, hlength, -⟩, -⟩, hheight, hlevel⟩ := h
  have hanti : levelBound level (limit - depth (.chain left op length :: frames)) ≤
      levelBound (op.level + 1) (limit - depth (.chain left op length :: frames)) :=
    levelBound_anti hlevel _
  have hmono : levelBound (op.level + 1) (limit - depth (.chain left op length :: frames)) ≤
      levelBound (op.level + 1) (limit - depth frames) := by
    rw [depth_cons]
    exact levelBound_mono _ (by omega)
  simp only [Expr.height]
  omega

theorem Stands.binary {left : Expr} {op : BinaryOp} {length : Nat}
    (h : Stands limit level e (.chain left op length :: frames)) :
    Stands limit op.level (.binary op left e) frames := by
  have hheight := h.binary_height
  have hpred := levelBound_pred op.level_lt (limit - depth frames)
  obtain ⟨⟨hdepth, ⟨-, -, hlevel⟩, hframes⟩, -, -⟩ := h
  rw [depth_cons] at hdepth
  simp only [Frame.levels] at hdepth
  exact ⟨hframes, by omega, hlevel⟩

theorem reduce_stands {target : Nat} (ht : target < 6) (h : Stands limit level e frames)
    (hl : target < level) :
    Stands limit (target + 1) (reduce target e frames).1 (reduce target e frames).2 := by
  induction frames generalizing e level with
  | nil => exact h.weaken hl (Nat.zero_le _)
  | cons frame frames ih =>
    cases frame with
    | unary op => exact ih h.unary ht
    | chain left op length =>
      unfold reduce
      split
      · rename_i hlt
        exact ih h.binary hlt
      · rename_i hlt
        exact h.weaken hl (by simp only [operandLevel]; omega)
    | _ => exact h.weaken hl (Nat.zero_le _)

theorem reduce_ne_unary (target : Nat) (e : Expr) (frames : List Frame) (op : UnaryOp)
    (rest : List Frame) : (reduce target e frames).2 ≠ .unary op :: rest := by
  induction frames generalizing e with
  | nil => simp [reduce]
  | cons frame frames ih =>
    cases frame with
    | unary op' => exact ih _
    | chain left op' length =>
      unfold reduce
      split
      · exact ih _
      · simp
    | _ => simp [reduce]

theorem reduceAll_stands (h : Stands limit level e frames) :
    Stands limit 0 (reduceAll e frames).1 (reduceAll e frames).2 := by
  induction frames generalizing e level with
  | nil => exact h.weaken (Nat.zero_le _) (Nat.zero_le _)
  | cons frame frames ih =>
    cases frame with
    | unary op => exact ih h.unary
    | chain left op length => exact ih h.binary
    | _ => exact h.weaken (Nat.zero_le _) (Nat.zero_le _)

theorem extendChain_fits (op : BinaryOp) (h : Stands limit 6 e frames)
    (hd : depth (extendChain op e frames) ≤ limit) :
    FramesFit limit (extendChain op e frames) := by
  have hr := reduce_stands op.level_lt h op.level_lt
  have hunary := reduce_ne_unary op.level e frames
  have hnew {e : Expr} {frames : List Frame} (h : Stands limit (op.level + 1) e frames)
      (ho : operandLevel frames ≤ op.level) (hd : depth (.chain e op 1 :: frames) ≤ limit) :
      FramesFit limit (.chain e op 1 :: frames) :=
    ⟨hd, ⟨Nat.succ_le_succ h.height, Nat.le_refl 1, ho⟩, h.frames_fit⟩
  unfold extendChain at hd ⊢
  generalize reduce op.level e frames = r at hr hd hunary
  obtain ⟨e, frames⟩ := r
  dsimp only at hr hunary
  split at hd
  · rename_i e left previous length frames heq
    obtain ⟨rfl, rfl⟩ := Prod.mk.inj heq
    -- The reduction stopped at a chain: of the operator's own level, or of a looser one.
    by_cases hsame : previous.level = op.level
    · rw [if_pos hsame] at hd ⊢
      have hheight := hr.binary_height
      obtain ⟨-, ⟨-, -, hlevel⟩, hframes⟩ := hr.frames_fit
      rw [hsame] at hheight hlevel
      exact ⟨hd, ⟨Nat.succ_le_succ hheight, by omega, hlevel⟩, hframes⟩
    · rw [if_neg hsame] at hd ⊢
      have hlevel : previous.level + 1 ≤ op.level + 1 := hr.level
      exact hnew hr (by simp only [operandLevel]; omega) hd
  · rename_i e frames hnot heq
    obtain ⟨rfl, rfl⟩ := Prod.mk.inj heq
    refine hnew hr ?_ hd
    cases frames with
    | nil => exact Nat.zero_le _
    | cons frame frames =>
      cases frame with
      | unary op' => exact absurd rfl (hunary op' frames)
      | chain left op' length => exact (hnot _ _ _ _ rfl).elim
      | _ => exact Nat.zero_le _

theorem itemsHeight_le_iff (items : List Expr) (n : Nat) :
    itemsHeight items ≤ n ↔ ∀ e ∈ items, e.height + 1 ≤ n := by
  induction items with
  | nil => simp [itemsHeight]
  | cons e rest ih => simp only [itemsHeight, List.forall_mem_cons, Nat.max_le, ih]

theorem entriesHeight_le_iff (entries : List (String × Expr)) (n : Nat) :
    entriesHeight entries ≤ n ↔ ∀ entry ∈ entries, entry.2.height + 1 ≤ n := by
  induction entries with
  | nil => simp [entriesHeight]
  | cons entry rest ih =>
    have he : entryHeight entry = entry.2.height := by cases entry; rfl
    simp only [entriesHeight, he, List.forall_mem_cons, Nat.max_le, ih]

theorem ItemsFit.cons {r : Nat} {reversed : List Expr} (h : ItemsFit r reversed)
    (he : e.height + 1 ≤ primaryBound r) : ItemsFit r (e :: reversed) :=
  List.forall_mem_cons.2 ⟨he, h⟩

theorem EntriesFit.cons {r : Nat} {reversed : List (String × Expr)} (h : EntriesFit r reversed)
    (key : String) (he : e.height + 1 ≤ primaryBound r) : EntriesFit r ((key, e) :: reversed) :=
  List.forall_mem_cons.2 ⟨he, h⟩

theorem ItemsFit.build {r : Nat} {reversed : List Expr} (h : ItemsFit r reversed)
    (kind : ListKind) : (kind.build reversed.reverse).height ≤ primaryBound r := by
  have hi : itemsHeight reversed.reverse ≤ primaryBound r :=
    (itemsHeight_le_iff _ _).2 fun e he => h e (List.mem_reverse.1 he)
  cases kind <;> exact hi

theorem EntriesFit.build {r : Nat} {reversed : List (String × Expr)} (h : EntriesFit r reversed) :
    (Expr.object reversed.reverse).height ≤ primaryBound r :=
  (entriesHeight_le_iff _ _).2 fun entry he => h entry (List.mem_reverse.1 he)

theorem Stands.inner {frame : Frame} (h : Stands limit 0 e (frame :: frames))
    (hl : 1 ≤ frame.levels) : e.height + 1 ≤ primaryBound (limit - depth frames) := by
  have hdepth := h.frames_fit.depth_le
  have hheight := h.height
  rw [depth_cons] at hdepth hheight
  have hmono : levelBound 0 (limit - (depth frames + frame.levels)) ≤
      levelBound 0 (limit - depth frames - 1) := levelBound_mono 0 (by omega)
  have hsucc := primaryBound_succ (limit - depth frames - 1)
  rw [Nat.sub_add_cancel (by omega)] at hsucc
  omega

theorem Purpose.build_height (purpose : Purpose) (e : Expr) :
    (purpose.build e).height = e.height := by
  cases purpose <;> rfl

namespace Fragment
variable {purpose : Purpose} {awaiting : Awaiting} {f : Fragment}

theorem enter_fits (h : enter limit purpose frames awaiting = .ok f)
    (hf : depth frames ≤ limit → FramesFit limit frames)
    (ha : awaiting.Fits (limit - depth frames)) : f.Fits limit := by
  unfold enter at h
  split at h
  · rename_i hd
    cases h
    exact ⟨hf (by omega), hd, ha⟩
  · cases h

theorem inside_fits (hf : FramesFit limit frames) (hl : awaiting.levels = 0)
    (ha : awaiting.Fits (limit - depth frames)) : (inside purpose frames awaiting).Fits limit :=
  ⟨hf, by rw [hl]; exact hf.depth_le, ha⟩

theorem pushOperand_fits {t : Token} (hf : FramesFit limit frames)
    (h : pushOperand limit purpose frames t = .ok f) : f.Fits limit := by
  have hnew : ∀ frame : Frame, frame.Fits (limit - depth frames) frames →
      depth (frame :: frames) ≤ limit → FramesFit limit (frame :: frames) :=
    fun frame hfit hd => ⟨hd, hfit, hf⟩
  unfold pushOperand at h
  split at h
  · cases h
    exact inside_fits hf rfl (Nat.zero_le _)
  · cases h
    exact inside_fits hf rfl (Nat.zero_le _)
  · split at h
    · cases h
      exact inside_fits hf rfl (Nat.zero_le _)
    · split at h
      · cases h
      · cases h
        exact inside_fits hf rfl trivial
  · exact enter_fits h (hnew _ trivial) trivial
  · exact enter_fits h (hnew _ trivial) trivial
  · exact enter_fits h (hnew _ trivial) trivial
  · cases h
    exact inside_fits hf rfl (by simp [Awaiting.Fits, ItemsFit])
  · cases h
    exact inside_fits hf rfl (by simp [Awaiting.Fits, EntriesFit])
  · cases h

theorem pushAfter_fits {steps : Nat} {t : Token} (hf : FramesFit limit frames)
    (hd : depth frames + steps ≤ limit)
    (he : e.height ≤ primaryBound (limit - depth frames) + steps)
    (h : pushAfter limit purpose frames e steps t = .ok f) : f.Fits limit := by
  have hstands : Stands limit 6 e frames := by
    refine ⟨hf, ?_, operandLevel_le frames⟩
    rw [levelBound_six]
    omega
  have hall := reduceAll_stands hstands
  unfold pushAfter at h
  split at h
  · exact enter_fits h (fun _ => hf) he
  · exact enter_fits h (fun hd' => ⟨hd', he, hf⟩) trivial
  · split at h
    · exact enter_fits h (fun hd' => extendChain_fits _ hstands hd') trivial
    · generalize reduceAll e frames = r at h hall
      obtain ⟨inner, rest⟩ := r
      dsimp only at hall
      split at h
      case h_1 inner rest _ heq _ _ _ =>
        obtain ⟨rfl, rfl⟩ := Prod.mk.inj heq
        cases h
        have hi := hall.inner (Nat.le_refl 1)
        exact inside_fits hall.frames_fit.2.2 rfl (Nat.le_of_succ_le hi)
      case h_2 position target steps rest _ heq _ _ _ =>
        obtain ⟨rfl, rfl⟩ := Prod.mk.inj heq
        cases h
        have hi := hall.inner (by simp [Frame.levels])
        obtain ⟨hdepth, htarget, hrest⟩ := hall.frames_fit
        rw [depth_cons] at hdepth
        simp only [Frame.levels, Frame.Fits] at hdepth htarget
        refine ⟨hrest, ?_, ?_⟩
        · simp only [Awaiting.levels]
          omega
        · simp only [Awaiting.Fits, Expr.height]
          omega
      case h_3 item kind reversed rest _ heq _ _ _ =>
        obtain ⟨rfl, rfl⟩ := Prod.mk.inj heq
        cases h
        obtain ⟨-, hitems, hrest⟩ := hall.frames_fit
        exact inside_fits hrest rfl (hitems.cons (hall.inner (Nat.le_refl 1)))
      case h_4 value key reversed rest _ heq _ _ _ =>
        obtain ⟨rfl, rfl⟩ := Prod.mk.inj heq
        cases h
        obtain ⟨-, hentries, hrest⟩ := hall.frames_fit
        exact inside_fits hrest rfl (hentries.cons _ (hall.inner (Nat.le_refl 1)))
      case h_5 value key reversed rest _ heq _ _ _ =>
        obtain ⟨rfl, rfl⟩ := Prod.mk.inj heq
        cases h
        obtain ⟨-, hentries, hrest⟩ := hall.frames_fit
        exact inside_fits hrest rfl (hentries.cons _ (hall.inner (Nat.le_refl 1))).build
      case h_6 e _ heq _ _ _ =>
        obtain ⟨rfl, rfl⟩ := Prod.mk.inj heq
        cases h
        have hheight := hall.height
        simpa [Fits, Purpose.build_height, depth] using hheight
      case h_7 _ _ _ _ _ _ _ _ heq _ _ _ =>
        obtain ⟨rfl, rfl⟩ := Prod.mk.inj heq
        split at h
        · cases h
          obtain ⟨-, hitems, hrest⟩ := hall.frames_fit
          exact inside_fits hrest rfl ((hitems.cons (hall.inner (Nat.le_refl 1))).build _)
        · cases h
      case h_8 => cases h
  · cases h

theorem pushInside_fits {t : Token} (hf : FramesFit limit frames)
    (hd : depth frames + awaiting.levels ≤ limit) (ha : awaiting.Fits (limit - depth frames))
    (h : pushInside limit purpose frames awaiting t = .ok f) : f.Fits limit := by
  unfold pushInside at h
  split at h
  case h_1 => exact pushOperand_fits hf h
  case h_2 kind reversed =>
    split at h
    · cases h
      exact inside_fits hf rfl (ItemsFit.build ha kind)
    · cases henter : enter limit purpose (.item kind reversed :: frames) .operand with
      | error cause => simp [henter, Except.bind] at h
      | ok entered =>
        rw [henter] at h
        have hentered : entered.Fits limit :=
          enter_fits henter (fun hd' => ⟨hd', ha, hf⟩) trivial
        unfold enter at henter
        split at henter
        · cases henter
          exact pushOperand_fits hentered.1 h
        · cases henter
  case h_3 reversed =>
    split at h
    · cases h
      exact inside_fits hf rfl (EntriesFit.build ha)
    · cases h
      exact inside_fits hf rfl ha
    · cases h
      exact inside_fits hf rfl ha
    · cases h
      exact inside_fits hf rfl ha
    · cases h
  case h_4 reversed key =>
    split at h
    · exact enter_fits h (fun hd' => ⟨hd', ha, hf⟩) trivial
    · cases h
  case h_5 target steps =>
    split at h
    · cases h
      exact ⟨hf, hd, Nat.succ_le_succ ha⟩
    · cases h
  case h_6 name =>
    split at h
    · cases h
      exact inside_fits hf rfl (by simp [Awaiting.Fits, ItemsFit])
    · exact pushAfter_fits hf hd (Nat.zero_le _) h
  case h_7 e steps => exact pushAfter_fits hf hd ha h

/-- Every token keeps the fragment within its bounds. -/
theorem push_fits {fragment : Fragment} {t : Token} (hl : 0 < limit) (hf : fragment.Fits limit)
    (h : push limit fragment t = .ok f) : f.Fits limit := by
  have hnil : FramesFit limit [] := hl
  unfold push at h
  split at h
  case h_1 =>
    split at h
    · cases h
      exact Nat.zero_le _
    · split at h
      · cases h
        trivial
      · split at h
        · cases h
          trivial
        · cases h
          exact inside_fits hnil rfl trivial
    · cases henter : enter limit .result [] .operand with
      | error cause => simp [henter, Except.bind] at h
      | ok entered =>
        rw [henter] at h
        exact pushOperand_fits hnil h
  case h_2 v =>
    split at h
    · cases h
    · exact pushAfter_fits hnil hl (Nat.zero_le _) h
  case h_3 =>
    split at h
    · split at h
      · cases h
      · cases h
        trivial
    · cases h
  case h_4 name =>
    split at h
    · exact enter_fits h (fun _ => hnil) trivial
    · cases h
  case h_5 name =>
    split at h
    · exact enter_fits h (fun _ => hnil) trivial
    · exact pushInside_fits hf.1 hf.2.1 hf.2.2 h
  case h_6 => exact pushInside_fits hf.1 hf.2.1 hf.2.2 h
  case h_7 => cases h

theorem foldlM_push_fits {fragment : Fragment} (hl : 0 < limit) (tokens : List Token)
    (hf : fragment.Fits limit) (h : tokens.foldlM (push limit) fragment = .ok f) :
    f.Fits limit := by
  induction tokens generalizing fragment with
  | nil =>
    cases h
    exact hf
  | cons t rest ih =>
    rw [List.foldlM_cons] at h
    cases hp : push limit fragment t with
    | error cause =>
      rw [hp] at h
      cases h
    | ok next =>
      rw [hp] at h
      exact ih (push_fits hl hf hp) h

theorem finishAfter_height {s : Statement} (hs : Stands limit level e frames)
    (h : finishAfter purpose frames e = .ok s) : s.height ≤ levelBound 0 (limit - 1) := by
  have hall := reduceAll_stands hs
  unfold finishAfter at h
  split at h
  · rename_i inner heq
    cases h
    rw [heq] at hall
    simpa [Purpose.build_height, depth] using hall.height
  · cases h

theorem finish_height {s : Statement} (hf : f.Fits limit) (h : f.finish limit = .ok s) :
    s.height ≤ levelBound 0 (limit - 1) := by
  unfold finish at h
  split at h
  case h_1 =>
    cases h
    exact Nat.zero_le _
  case h_2 =>
    cases h
    exact Nat.zero_le _
  case h_5 purpose frames name =>
    exact finishAfter_height ⟨hf.1, Nat.zero_le _, operandLevel_le frames⟩ h
  case h_6 purpose frames e steps =>
    obtain ⟨hframes, hdepth, hheight⟩ := hf
    simp only [Awaiting.levels, Awaiting.Fits] at hdepth hheight
    refine finishAfter_height ⟨hframes, ?_, operandLevel_le frames⟩ h
    rw [levelBound_six]
    omega
  case h_7 =>
    split at h <;> cases h
  case h_9 =>
    cases h
    exact hf
  all_goals cases h

end Fragment

/-- The height of a statement that tokens make is bounded. -/
theorem Statement.ofTokensWithin_height {tokens : List Token} {s : Statement} (hl : 0 < limit)
    (h : Statement.ofTokensWithin limit tokens = .ok s) : s.height ≤ levelBound 0 (limit - 1) := by
  unfold Statement.ofTokensWithin at h
  split at h
  · rename_i f hfold
    have hstart : Fragment.start.Fits limit := trivial
    exact Fragment.finish_height (Fragment.foldlM_push_fits hl tokens hstart hfold) h
  · cases h

theorem levelBound_maxDepth : levelBound 0 (maxDepth - 1) = 57023 := by
  decide +kernel

/-- The limit of the parser bounds the height of a tree, but not by itself. A run of what was parsed
fails for its depth in exactly those scopes in which the evaluation reaches below that many edges,
so it never does where the tree is no higher. -/
theorem parse_height_and_depth_failure {text : List Char} {s : Statement}
    (h : Statement.parse text = .ok s) :
    s.height ≤ 57023 ∧
      ∀ scope, ((s.run scope).outcome = .error .tooDeep ↔ maxDepth < s.reach scope) ∧
        s.reach scope ≤ s.height := by
  refine ⟨?_, fun scope => ⟨s.run_tooDeep_iff scope, s.reach_le_height scope⟩⟩
  unfold Statement.parse at h
  split at h
  · rw [← levelBound_maxDepth]
    exact Statement.ofTokensWithin_height (by decide) h
  · cases h

def chainBehindPrefixes : List Char :=
  List.replicate 127 '-' ++ ['a', '+', 'a', '+', 'a']

def Timed.failsForDepth {α : Type} (x : Timed RuntimeError α) : Bool :=
  match x.outcome with
  | .error .tooDeep => true
  | _ => false

def Statement.exceedsLimit (s : Statement) : Bool :=
  decide (maxDepth < s.height) && (s.run []).failsForDepth

/-- What was parsed can be higher than the limit, and then a run fails for its depth. -/
theorem parsed_higher_than_limit :
    ∃ s, Statement.parse chainBehindPrefixes = .ok s ∧ maxDepth < s.height ∧
      (s.run []).outcome = .error .tooDeep := by
  have hcheck :
      (Statement.parse chainBehindPrefixes).toOption.any Statement.exceedsLimit = true := by
    decide +kernel
  cases hp : Statement.parse chainBehindPrefixes with
  | error e => simp [hp, Except.toOption] at hcheck
  | ok s =>
    simp only [hp, Except.toOption, Option.any_some, Statement.exceedsLimit, Bool.and_eq_true,
      decide_eq_true_eq] at hcheck
    obtain ⟨hheight, hfails⟩ := hcheck
    refine ⟨s, rfl, hheight, ?_⟩
    unfold Timed.failsForDepth at hfails
    split at hfails
    · assumption
    · simp at hfails

theorem parsed_sum_within_limit :
    ∃ s, Statement.parse ['a', '+', 'a'] = .ok s ∧ s.height ≤ 57023 ∧
      ∀ scope, ((s.run scope).outcome = .error .tooDeep ↔ maxDepth < s.reach scope) ∧
        s.reach scope ≤ s.height :=
  have h : Statement.parse ['a', '+', 'a'] =
      .ok (.expr (.binary .add (.name "a") (.name "a"))) := by rfl
  ⟨_, h, parse_height_and_depth_failure h⟩

end PromptLoop.Script
