import PromptLoop.Proofs.Script.Grammar

set_option autoImplicit false

namespace PromptLoop.Script

def Awaiting.read? : Awaiting → Option (Expr × Nat)
  | .afterName n => some (.name n, 0)
  | .afterOperand e steps => some (e, steps)
  | _ => none

/-- `x` behind `inner` goes on like `e` behind `frames` where operators of a level and looser ones
may follow. -/
structure Complete (level : Nat) (e : Expr) (frames : List Frame) (x : Expr)
    (inner : List Frame) : Prop where
  reduce : ∀ target < level, reduce target x inner = reduce target e frames
  all : reduceAll x inner = reduceAll e frames
  same : 7 ≤ level → x = e ∧ inner = frames
  chain : ∀ op : BinaryOp, op.level = level → operandLevel frames ≤ level →
    ∃ length, extendChain op x inner = .chain e op length :: frames

inductive Held (purpose : Purpose) (level : Nat) (e : Expr) (frames : List Frame) :
    Fragment → Prop where
  | mk {x : Expr} {inner : List Frame} {awaiting : Awaiting} {steps : Nat}
      (hr : awaiting.read? = some (x, steps)) (hc : Complete level e frames x inner) :
      Held purpose level e frames (.inside purpose inner awaiting)

variable {limit level : Nat} {purpose : Purpose} {e x : Expr} {frames inner : List Frame}
  {ts : List Token} {t : Token} {f g : Fragment} {P : Fragment → Prop}

theorem reduce_self (h : operandLevel frames ≤ level) (hl : level < 6) (e : Expr) :
    reduce level e frames = (e, frames) := by
  cases frames with
  | nil => rfl
  | cons frame frames =>
    cases frame with
    | unary op =>
      simp only [operandLevel] at h
      omega
    | chain left op length =>
      have hn : ¬ level < op.level := by
        simp only [operandLevel] at h
        omega
      simp only [Script.reduce, if_neg hn]
    | _ => rfl

theorem extendChain_of_reduce {op : BinaryOp} (hr : reduce op.level x inner = (e, frames))
    (h : operandLevel frames ≤ op.level) : extendChain op x inner = .chain e op 1 :: frames := by
  unfold extendChain
  rw [hr]
  cases frames with
  | nil => rfl
  | cons frame frames =>
    cases frame with
    | chain left previous length =>
      have hn : previous.level ≠ op.level := by
        simp only [operandLevel] at h
        omega
      simp only [if_neg hn]
    | _ => rfl

namespace Complete

theorem refl (hl : 6 ≤ level) : Complete level e frames e frames where
  reduce _ _ := rfl
  all := rfl
  same _ := ⟨rfl, rfl⟩
  chain op ho _ := by
    have hlt := op.level_lt
    omega

theorem tighter (h : Complete (level + 1) e frames x inner) :
    Complete level e frames x inner where
  reduce target ht := h.reduce target (Nat.lt_succ_of_lt ht)
  all := h.all
  same hl := h.same (Nat.le_succ_of_le hl)
  chain op ho hf := by
    subst ho
    have hr := h.reduce op.level (Nat.lt_succ_self _)
    rw [reduce_self hf op.level_lt] at hr
    exact ⟨1, extendChain_of_reduce hr hf⟩

theorem unary {op : UnaryOp} (h : Complete 6 e (.unary op :: frames) x inner) :
    Complete 6 (.unary op e) frames x inner where
  reduce := h.reduce
  all := h.all
  same hl := absurd hl (by decide)
  chain op ho _ := by
    have hlt := op.level_lt
    omega

theorem binary {left : Expr} {op : BinaryOp} {length : Nat}
    (h : Complete (op.level + 1) e (.chain left op length :: frames) x inner) :
    Complete op.level (.binary op left e) frames x inner where
  reduce target ht := by
    rw [h.reduce target (Nat.lt_succ_of_lt ht)]
    simp only [Script.reduce, if_pos ht]
  all := h.all
  same hl := by
    have hlt := op.level_lt
    omega
  chain next ho _ := by
    refine ⟨length + 1, ?_⟩
    have hr : Script.reduce next.level x inner = (e, .chain left op length :: frames) := by
      rw [ho, h.reduce op.level (Nat.lt_succ_self _)]
      simp only [Script.reduce, Nat.lt_irrefl, if_false]
    unfold extendChain
    rw [hr]
    simp only [ho, if_true]

end Complete

theorem push_read {awaiting : Awaiting} {steps : Nat} (hr : awaiting.read? = some (x, steps))
    (hp : t ≠ .symbol .openParen) (ha : t ≠ .symbol .assign) :
    Fragment.push limit (.inside purpose inner awaiting) t =
      Fragment.pushAfter limit purpose inner x steps t := by
  cases awaiting with
  | afterName n =>
    cases hr
    have hinside : Fragment.pushInside limit purpose inner (.afterName n) t =
        Fragment.pushAfter limit purpose inner (.name n) 0 t := if_neg hp
    rw [← hinside]
    cases purpose with
    | assign name declare => rfl
    | result =>
      cases inner with
      | nil => exact if_neg ha
      | cons frame frames => rfl
  | afterOperand e steps =>
    cases hr
    exact push_inside (by simp) t
  | _ => cases hr

theorem finish_read {awaiting : Awaiting} {steps : Nat}
    (hr : awaiting.read? = some (x, steps)) (hall : reduceAll x inner = (e, [])) :
    (Fragment.inside purpose inner awaiting).finish limit = .ok (purpose.build e) := by
  cases awaiting with
  | afterName name =>
    cases hr
    simp only [Fragment.finish, Fragment.finishAfter, hall]
  | afterOperand e steps =>
    cases hr
    simp only [Fragment.finish, Fragment.finishAfter, hall]
  | _ => cases hr

theorem pushAfter_assign (limit : Nat) (purpose : Purpose) (frames : List Frame) (e : Expr)
    (steps : Nat) : Fragment.pushAfter limit purpose frames e steps (.symbol .assign) =
      .error (.unexpected (.symbol .assign)) := by
  unfold Fragment.pushAfter
  simp only [BinaryOp.ofSymbol?]
  generalize reduceAll e frames = r
  obtain ⟨e, frames⟩ := r
  cases frames with
  | nil => rfl
  | cons frame frames =>
    cases frame with
    | item kind reversed => cases kind <;> rfl
    | _ => rfl

theorem Held.not_operand : ¬ Held purpose level e frames (.inside purpose inner .operand) := by
  intro h
  cases h with
  | mk hr _ => cases hr

theorem Held.tighter (h : Held purpose (level + 1) e frames f) :
    Held purpose level e frames f := by
  obtain ⟨hr, hc⟩ := h
  exact ⟨hr, hc.tighter⟩

theorem Held.leaf (hl : 6 ≤ level) (e : Expr) (steps : Nat) :
    Held purpose level e frames (.inside purpose frames (.afterOperand e steps)) :=
  ⟨rfl, .refl hl⟩

theorem Held.push_step (limit : Nat) (h : Held purpose 7 e frames f) (hp : t ≠ .symbol .openParen)
    (ha : t ≠ .symbol .assign) : ∃ steps, Fragment.push limit f t =
      Fragment.pushAfter limit purpose frames e steps t := by
  obtain ⟨hr, hc⟩ := h
  obtain ⟨rfl, rfl⟩ := hc.same (Nat.le_refl 7)
  exact ⟨_, push_read hr hp ha⟩

theorem Held.push_sign (limit : Nat) {op : BinaryOp} (h : Held purpose op.level e frames f)
    (hf : operandLevel frames ≤ op.level) : ∃ length, Fragment.push limit f (.symbol op.sign) =
      Fragment.enter limit purpose (.chain e op length :: frames) .operand := by
  obtain ⟨hr, hc⟩ := h
  obtain ⟨length, hchain⟩ := hc.chain op rfl hf
  refine ⟨length, ?_⟩
  rw [push_read hr (by cases op <;> decide) (by cases op <;> decide), ← hchain]
  cases op <;> rfl

/-- A symbol that is no operator and no postfix step ends the expression up to the innermost
bracket. -/
theorem Held.push_end {symbol : Symbol} (h : Held purpose 0 e frames f)
    (ho : symbol ∈ [Symbol.closeParen, .closeBracket, .closeBrace, .comma, .semicolon]) :
    Fragment.push limit f (.symbol symbol) =
      Fragment.pushAfter limit purpose frames e 0 (.symbol symbol) := by
  obtain ⟨hr, hc⟩ := h
  have hall := hc.all
  simp only [List.mem_cons, List.not_mem_nil, or_false] at ho
  rw [push_read hr (by rintro ⟨⟩; simp at ho) (by rintro ⟨⟩; simp at ho)]
  rcases ho with rfl | rfl | rfl | rfl | rfl <;>
    simp only [Fragment.pushAfter, BinaryOp.ofSymbol?, hall]

theorem LeadsTo.operand_ne_nil (h : LeadsTo limit (.inside purpose inner .operand) ts
    (Held purpose level e frames)) : ts ≠ [] := by
  rintro rfl
  rcases h with he | ⟨g, hg, hh⟩
  · cases he
  · cases hg
    exact Held.not_operand hh

theorem LeadsTo.item {kind : ListKind} {reversed : List Expr}
    (h : LeadsTo limit (.inside purpose (.item kind reversed :: frames) .operand) ts
      (Held purpose level e (.item kind reversed :: frames))) :
    LeadsTo limit (.inside purpose frames (.item kind reversed)) ts
      (Held purpose level e (.item kind reversed :: frames)) := by
  cases ts with
  | nil => exact absurd rfl h.operand_ne_nil
  | cons t rest =>
    have hpush : Fragment.push limit (.inside purpose frames (.item kind reversed)) t =
        if t = .symbol kind.close then
          .ok (.inside purpose frames (.afterOperand (kind.build reversed.reverse) 0))
        else (Fragment.enter limit purpose (.item kind reversed :: frames) .operand).bind fun _ =>
          Fragment.pushOperand limit purpose (.item kind reversed :: frames) t :=
      push_inside (by simp) t
    have hoperand :
        Fragment.push limit (.inside purpose (.item kind reversed :: frames) .operand) t =
          Fragment.pushOperand limit purpose (.item kind reversed :: frames) t :=
      push_inside (by simp) t
    by_cases ht : t = .symbol kind.close
    · -- A closing bracket is no operand.
      have hrefused : Fragment.pushOperand limit purpose (.item kind reversed :: frames) t =
          .error (.unexpected t) := by
        cases kind <;> cases ht <;> rfl
      exact absurd (hoperand.trans hrefused) h.push_ne_unexpected
    · rw [if_neg ht] at hpush
      unfold Fragment.enter at hpush
      split at hpush
      · exact .of_push_eq (hpush.trans hoperand.symm) h
      · left
        rw [List.foldlM_cons, hpush]
        rfl

theorem keywordValue?_eq_none {n : String} (hn : isKeyword n = false) :
    keywordValue? n = none ∧ n ≠ "let" := by
  simp only [isKeyword, Bool.or_eq_false_iff, beq_eq_false_iff_ne] at hn
  obtain ⟨⟨⟨hl, ht⟩, hf⟩, hnull⟩ := hn
  exact ⟨by simp only [keywordValue?, if_neg ht, if_neg hf, if_neg hnull], hl⟩

def Part.Readable (limit : Nat) (ts : List Token) : Part → Prop
  | .operand level e => ∀ purpose frames, operandLevel frames ≤ level →
      LeadsTo limit (.inside purpose frames .operand) ts (Held purpose level e frames)
  | .items es => ∀ purpose frames kind reversed,
      LeadsTo limit (.inside purpose frames (.item kind reversed)) (ts ++ [.symbol kind.close])
        (· = .inside purpose frames (.afterOperand (kind.build (reversed.reverse ++ es)) 0))
  | .entries members => ∀ purpose frames reversed,
      LeadsTo limit (.inside purpose frames (.key reversed)) (ts ++ [.symbol .closeBrace])
        (· = .inside purpose frames (.afterOperand (.object (reversed.reverse ++ members)) 0))

theorem pushOperand_name (limit : Nat) {n : String} (hn : isKeyword n = false) (purpose : Purpose)
    (frames : List Frame) : Fragment.pushOperand limit purpose frames (.word n) =
      .ok (.inside purpose frames (.afterName n)) := by
  obtain ⟨hv, hl⟩ := keywordValue?_eq_none hn
  simp only [Fragment.pushOperand, hv, if_neg hl]

theorem readable_leaf (hpush : ∀ purpose frames, ∃ awaiting,
    Fragment.pushOperand limit purpose frames t = .ok (.inside purpose frames awaiting) ∧
      awaiting.read? = some (e, 0)) : (Part.operand 8 e).Readable limit [t] := by
  intro purpose frames _
  obtain ⟨awaiting, hp, hr⟩ := hpush purpose frames
  refine .cons ((push_inside (by simp) t).trans hp) (.nil ⟨hr, .refl (by decide)⟩)

theorem readable_list (kind : ListKind) (hk : kind.Legal) {es : List Expr}
    (h : (Part.items es).Readable limit ts) :
    (Part.operand 8 (kind.build es)).Readable limit
      (kind.opening ++ (ts ++ [.symbol kind.close])) := by
  intro purpose frames _
  have hitems : LeadsTo limit (.inside purpose frames (.item kind [])) (ts ++ [.symbol kind.close])
      (Held purpose 8 (kind.build es) frames) := by
    refine (h purpose frames kind []).imp ?_
    rintro g rfl
    exact .leaf (by decide) _ _
  cases kind with
  | array => exact .cons (push_inside (by simp) _) hitems
  | call function =>
    have hname := pushOperand_name limit hk purpose frames
    have hparen : Fragment.push limit (.inside purpose frames (.afterName function))
        (.symbol .openParen) = .ok (.inside purpose frames (.item (.call function) [])) := by
      cases purpose with
      | assign name declare => rfl
      | result => cases frames <;> rfl
    exact .cons ((push_inside (by simp) _).trans hname) (.cons hparen hitems)

theorem pushAfter_close (limit : Nat) (purpose : Purpose) (steps : Nat) {kind : ListKind}
    {reversed : List Expr} (hall : reduceAll x inner = (e, .item kind reversed :: frames)) :
    Fragment.pushAfter limit purpose inner x steps (.symbol kind.close) =
      .ok (.inside purpose frames (.afterOperand (kind.build (e :: reversed).reverse) 0)) := by
  cases kind <;>
    simp only [ListKind.close, Fragment.pushAfter, BinaryOp.ofSymbol?, hall, if_true]

theorem LeadsTo.entry {reversed : List (String × Expr)} {key : String} (hk : KeyToken t key)
    (h : LeadsTo limit (.inside purpose (.entry reversed key :: frames) .operand) ts P) :
    LeadsTo limit (.inside purpose frames (.key reversed)) (t :: .symbol .colon :: ts) P := by
  have hkey : Fragment.push limit (.inside purpose frames (.key reversed)) t =
      .ok (.inside purpose frames (.colon reversed key)) := by
    rw [push_inside (by simp)]
    cases hk <;> rfl
  have hcolon : Fragment.push limit (.inside purpose frames (.colon reversed key))
      (.symbol .colon) = Fragment.enter limit purpose (.entry reversed key :: frames) .operand :=
    push_inside (by simp) _
  exact .cons hkey (.enter hcolon h)

/-- Tokens that stand for a part are read as that part. -/
theorem Derives.readable {part : Part} (limit : Nat) (h : Derives ts part) :
    part.Readable limit ts := by
  induction h with
  | tighter _ ih =>
    intro purpose frames hf
    exact (ih purpose frames (Nat.le_succ_of_le hf)).imp fun g hg => hg.tighter
  | binary op _ _ ihl ihr =>
    intro purpose frames hf
    refine (ihl purpose frames hf).append fun g hg => ?_
    obtain ⟨length, hpush⟩ := hg.push_sign limit hf
    refine .enter hpush ((ihr purpose _ (Nat.le_refl _)).imp ?_)
    rintro k ⟨hr, hc⟩
    exact ⟨hr, hc.binary⟩
  | unary op _ ih =>
    intro purpose frames _
    have hpush : Fragment.push limit (.inside purpose frames .operand) (.symbol op.sign) =
        Fragment.enter limit purpose (.unary op :: frames) .operand := by
      rw [push_inside (by simp)]
      cases op <;> rfl
    refine .enter hpush ((ih purpose _ (operandLevel_le _)).imp ?_)
    rintro k ⟨hr, hc⟩
    exact ⟨hr, hc.unary⟩
  | member name _ ih =>
    intro purpose frames hf
    refine (ih purpose frames hf).append fun g hg => ?_
    obtain ⟨steps, hpush⟩ := hg.push_step limit (t := .symbol .dot) (by simp) (by simp)
    exact .enter hpush (.cons (push_inside (by simp) _) (.nil (.leaf (by decide) _ _)))
  | @index front inner target position _ _ iht ihp =>
    intro purpose frames hf
    refine (iht purpose frames hf).append fun g hg => ?_
    obtain ⟨steps, hpush⟩ :=
      hg.push_step limit (t := .symbol .openBracket) (by simp) (by simp)
    refine .enter hpush ((ihp purpose _ (Nat.zero_le _)).append fun k hk => ?_)
    exact .cons (hk.push_end (by simp)) (.nil (.leaf (by decide) _ _))
  | number x => exact readable_leaf fun _ _ => ⟨_, rfl, rfl⟩
  | string s => exact readable_leaf fun _ _ => ⟨_, rfl, rfl⟩
  | truth => exact readable_leaf fun _ _ => ⟨_, rfl, rfl⟩
  | falsity => exact readable_leaf fun _ _ => ⟨_, rfl, rfl⟩
  | null => exact readable_leaf fun _ _ => ⟨_, rfl, rfl⟩
  | name hn =>
    exact readable_leaf fun purpose frames => ⟨_, pushOperand_name limit hn purpose frames, rfl⟩
  | @call function _ _ hn _ ih => exact readable_list (.call function) hn ih
  | array _ ih => exact readable_list .array ListKind.legal_array ih
  | group _ ih =>
    intro purpose frames _
    have hpush : Fragment.push limit (.inside purpose frames .operand) (.symbol .openParen) =
        Fragment.enter limit purpose (.group :: frames) .operand := push_inside (by simp) _
    refine .enter hpush ((ih purpose _ (Nat.zero_le _)).append fun g hg => ?_)
    exact .cons (hg.push_end (by simp)) (.nil (.leaf (by decide) _ _))
  | object _ ih =>
    intro purpose frames _
    refine .cons (push_inside (by simp) _) ((ih purpose frames []).imp ?_)
    rintro g rfl
    exact .leaf (by decide) _ _
  | noItems =>
    intro purpose frames kind reversed
    refine .cons (push_item_close limit purpose frames kind reversed) (.nil ?_)
    rw [List.append_nil]
  | lastItem _ ih =>
    intro purpose frames kind reversed
    refine (ih purpose _ (Nat.zero_le _)).item.append fun g hg => ?_
    have hsymbol : kind.close ∈
        [Symbol.closeParen, .closeBracket, .closeBrace, .comma, .semicolon] := by
      cases kind <;> simp [ListKind.close]
    refine .cons ((hg.push_end hsymbol).trans (pushAfter_close _ _ _ rfl)) (.nil ?_)
    rw [List.reverse_cons]
  | @moreItems _ _ e _ _ _ ih ihs =>
    intro purpose frames kind reversed
    rw [List.append_assoc]
    refine (ih purpose _ (Nat.zero_le _)).item.append fun g hg => ?_
    have hrest := ihs purpose frames kind (e :: reversed)
    refine .cons (hg.push_end (by simp)) ?_
    simpa using hrest
  | noEntries =>
    intro purpose frames reversed
    refine .cons (push_inside (by simp) _) (.nil ?_)
    rw [List.append_nil]
  | lastEntry hk _ ih =>
    intro purpose frames reversed
    refine .entry hk ((ih purpose _ (Nat.zero_le _)).append fun g hg => ?_)
    refine .cons (hg.push_end (by simp)) (.nil ?_)
    rw [List.reverse_cons]
  | @moreEntries _ _ _ key e _ hk _ _ ih ihs =>
    intro purpose frames reversed
    rw [List.cons_append, List.cons_append, List.append_assoc]
    refine .entry hk ((ih purpose _ (Nat.zero_le _)).append fun g hg => ?_)
    have hrest := ihs purpose frames ((key, e) :: reversed)
    refine .cons (hg.push_end (by simp)) ?_
    simpa using hrest

def Concludes (limit : Nat) (s : Statement) (f : Fragment) : Prop :=
  f.finish limit = .ok s ∧ Fragment.push limit f (.symbol .semicolon) = .ok (.closed s)

theorem Held.concludes (h : Held purpose 0 e [] f) : Concludes limit (purpose.build e) f := by
  have hend : Fragment.push limit f (.symbol .semicolon) = .ok (.closed (purpose.build e)) :=
    h.push_end (by simp)
  obtain ⟨hr, hc⟩ := h
  exact ⟨finish_read hr hc.all, hend⟩

/-- A keyword that a statement starts with goes on like any operand, but for an assignment. -/
theorem LeadsTo.keyword {v : Value}
    (h : LeadsTo limit (.inside .result [] (.afterOperand (.literal v) 0)) ts
      (Held .result 0 e [])) :
    LeadsTo limit (.keyword v) ts (Concludes limit (.expr e)) := by
  cases ts with
  | nil =>
    rcases h with he | ⟨g, hg, hh⟩
    · cases he
    · cases hg
      have hc : Concludes limit (.expr e) _ := hh.concludes
      exact .nil ⟨hc.1, hc.2⟩
  | cons t rest =>
    have hpush : Fragment.push limit (.inside .result [] (.afterOperand (.literal v) 0)) t =
        Fragment.pushAfter limit .result [] (.literal v) 0 t := push_inside (by simp) t
    by_cases ht : t = .symbol .assign
    · subst ht
      have hrefused := hpush.trans (pushAfter_assign limit .result [] (.literal v) 0)
      exact absurd hrefused h.push_ne_unexpected
    · have hkeyword : Fragment.push limit (.keyword v) t =
          Fragment.pushAfter limit .result [] (.literal v) 0 t := if_neg ht
      exact (h.of_push_eq (hkeyword.trans hpush.symm)).imp fun g hg => hg.concludes

theorem LeadsTo.start (h : LeadsTo limit (.inside .result [] .operand) ts (Held .result 0 e [])) :
    LeadsTo limit .start ts (Concludes limit (.expr e)) := by
  cases ts with
  | nil => exact absurd rfl h.operand_ne_nil
  | cons t rest =>
    have hoperand : Fragment.push limit (.inside .result [] .operand) t =
        Fragment.pushOperand limit .result [] t := push_inside (by simp) t
    have hconcludes (hpush : Fragment.push limit .start t =
        Fragment.push limit (.inside .result [] .operand) t) :
        LeadsTo limit .start (t :: rest) (Concludes limit (.expr e)) :=
      (h.of_push_eq hpush).imp fun g hg => hg.concludes
    have henter (hpush : Fragment.push limit .start t =
        (Fragment.enter limit .result [] .operand).bind fun _ =>
          Fragment.pushOperand limit .result [] t) :
        LeadsTo limit .start (t :: rest) (Concludes limit (.expr e)) := by
      unfold Fragment.enter at hpush
      split at hpush
      · exact hconcludes (hpush.trans hoperand.symm)
      · left
        rw [List.foldlM_cons, hpush]
        rfl
    cases t with
    | number x => exact henter rfl
    | string s => exact henter rfl
    | symbol symbol =>
      cases symbol with
      | semicolon => exact absurd hoperand h.push_ne_unexpected
      | _ => exact henter rfl
    | word w =>
      by_cases hl : w = "let"
      · subst hl
        exact absurd hoperand h.push_ne_unexpected
      · cases hv : keywordValue? w with
        | none =>
          refine hconcludes ?_
          rw [hoperand]
          simp only [Fragment.push, Fragment.pushOperand, hv, if_neg hl]
        | some v =>
          have hpush : Fragment.push limit .start (.word w) = .ok (.keyword v) := by
            simp only [Fragment.push, hv, if_neg hl]
          have hread : Fragment.push limit (.inside .result [] .operand) (.word w) =
              .ok (.inside .result [] (.afterOperand (.literal v) 0)) := by
            rw [hoperand]
            simp only [Fragment.pushOperand, hv]
          rcases h.uncons with he | ⟨g, hg, hrest⟩
          · rw [hread] at he
            cases he
          · rw [hread] at hg
            cases hg
            exact .cons hpush hrest.keyword

theorem DerivesStatement.leadsTo {s : Statement} (limit : Nat) (h : DerivesStatement ts s) :
    LeadsTo limit .start ts (Concludes limit s) := by
  cases h with
  | empty => exact .nil ⟨rfl, rfl⟩
  | expression h => exact (h.readable limit .result [] (Nat.le_refl 0)).start
  | @declaration name rest e hn h =>
    have hpush : Fragment.push limit .declaration (.word name) = .ok (.declared name) := by
      simp only [Fragment.push, hn, Bool.false_eq_true, if_false]
    have hassign : Fragment.push limit (.declared name) (.symbol .assign) =
        Fragment.enter limit (.assign name true) [] .operand := rfl
    refine .cons rfl (.cons hpush (.enter hassign ?_))
    exact (h.readable limit (.assign name true) [] (Nat.le_refl 0)).imp fun g hg => hg.concludes
  | @assignment name rest e hn h =>
    obtain ⟨hv, hl⟩ := keywordValue?_eq_none hn
    have hpush : Fragment.push limit .start (.word name) =
        .ok (.inside .result [] (.afterName name)) := by
      simp only [Fragment.push, hv, if_neg hl]
    have hassign : Fragment.push limit (.inside .result [] (.afterName name)) (.symbol .assign) =
        Fragment.enter limit (.assign name false) [] .operand := rfl
    refine .cons hpush (.enter hassign ?_)
    exact (h.readable limit (.assign name false) [] (Nat.le_refl 0)).imp fun g hg => hg.concludes

theorem DerivesUnit.ofTokensWithin {s : Statement} (limit : Nat) (h : DerivesUnit ts s) :
    Statement.ofTokensWithin limit ts = .error (.malformed .tooDeep) ∨
      Statement.ofTokensWithin limit ts = .ok s := by
  have hfinish : LeadsTo limit .start ts fun g => g.finish limit = .ok s := by
    cases h with
    | bare h => exact (h.leadsTo limit).imp fun g hg => hg.1
    | semicolon h => exact (h.leadsTo limit).append fun g hg => .cons hg.2 (.nil rfl)
  unfold Statement.ofTokensWithin
  rcases hfinish with he | ⟨g, hg, hs⟩
  · left
    rw [he]
  · right
    unfold Reads at hg
    rw [hg]
    exact hs

/-- Where the limit on nesting is not reported, the units are the token sequences that the grammar
derives, and their trees those of the derivations. So no sequence has two. -/
theorem ofTokens_eq_ok_iff {tokens : List Token}
    (h : Statement.ofTokens tokens ≠ .error (.malformed .tooDeep)) :
    (∀ s, Statement.ofTokens tokens = .ok s ↔ DerivesUnit tokens s) ∧
      ∀ s s', DerivesUnit tokens s → DerivesUnit tokens s' → s = s' := by
  have hread : ∀ s, DerivesUnit tokens s → Statement.ofTokens tokens = .ok s := fun s hs =>
    (hs.ofTokensWithin maxDepth).resolve_left h
  refine ⟨fun s => ⟨DerivesUnit.of_ofTokensWithin, hread s⟩, ?_⟩
  intro s s' hs hs'
  have heq : Except.ok s = (Except.ok s' : Except SyntaxError Statement) :=
    (hread s hs).symm.trans (hread s' hs')
  exact Except.ok.inj heq

def assignedSum : List Token :=
  [.word "x", .symbol .assign, .word "a", .symbol .plus, .symbol .openParen, .word "b",
    .symbol .closeParen, .symbol .star, .word "c", .symbol .semicolon]

theorem assignedSum_derived :
    Statement.ofTokens assignedSum ≠ .error (.malformed .tooDeep) ∧
      DerivesUnit assignedSum
        (.assign "x" (.binary .add (.name "a") (.binary .mul (.name "b") (.name "c"))) false) := by
  have hread : Statement.ofTokens assignedSum = .ok
      (.assign "x" (.binary .add (.name "a") (.binary .mul (.name "b") (.name "c"))) false) := rfl
  have hlimit : Statement.ofTokens assignedSum ≠ .error (.malformed .tooDeep) := by
    rw [hread]
    simp only [ne_eq, reduceCtorEq, not_false_eq_true]
  exact ⟨hlimit, ((ofTokens_eq_ok_iff hlimit).1 _).1 hread⟩

end PromptLoop.Script
