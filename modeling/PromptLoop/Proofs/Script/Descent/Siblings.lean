import PromptLoop.Proofs.Script.Descent.Agreement
import PromptLoop.Proofs.Script.Descent.Surroundings
import PromptLoop.Proofs.Script.Finality

set_option autoImplicit false

namespace PromptLoop.Script.Descent
variable {α : Type} {limit calls d : Nat} {tokens item ts : List Token} {e : Expr} {es : List Expr}
  {entries : List (String × Expr)} {r : Routine} {p u : Trail} {t : Token}

/-- Whatever stands between two brackets and is separated by commas, each for a value. A comma may
follow the last one. -/
inductive Siblings (Item : List Token → α → Prop) : List Token → List α → Prop where
  | none : Siblings Item [] []
  | last {ts : List Token} {x : α} (h : Item ts x) : Siblings Item ts [x]
  | more {front back : List Token} {x : α} {xs : List α} (h : Item front x)
      (hs : Siblings Item back xs) : Siblings Item (front ++ .symbol .comma :: back) (x :: xs)

/-- These tokens alone are an expression at a depth. -/
def ReadsAlone (limit d : Nat) (item : List Token) (e : Expr) : Prop :=
  ∃ u, outcome (call limit item .expression) ⟨⟨0, d⟩, []⟩ = some (.ok e, u) ∧
    u.place.position = item.length

/-- The value of an entry alone is one. -/
def EntryAlone (limit d : Nat) (ts : List Token) (entry : String × Expr) : Prop :=
  ∃ t value, ts = t :: .symbol .colon :: value ∧ t.key? = some entry.1 ∧
    ReadsAlone limit d value entry.2

theorem depth_groups (d : Nat) : depth (List.replicate d .group) = d + 1 := by
  induction d with
  | zero => rfl
  | succ d ih => rw [List.replicate_succ, depth_cons, ih]; rfl

theorem operandLevel_groups (d : Nat) : operandLevel (List.replicate d .group) = 0 := by
  cases d <;> rfl

/-- No item begins with what ends one, since pushing it is refused where an operand has to come. -/
theorem ReadsAlone.head?_ne (h : ReadsAlone limit d item e) (hd : d ≤ limit)
    (ht : t.endsItem = true) : item.head? ≠ some t := by
  intro hhead
  obtain ⟨u, ho, hend⟩ := h
  obtain ⟨rest, rfl⟩ := List.head?_eq_some_iff.1 hhead
  have hstart : (Place.mk 0 d).Between d limit (t :: rest).length :=
    ⟨Nat.le_refl d, hd, Nat.zero_le _⟩
  have hfaces : Faces limit (.assign "" true) (List.replicate d .group) .expression d
      ((t :: rest).drop 0) _ 0 :=
    .expression (depth_groups d) (operandLevel_groups d) (notAssigned_assign _ _ _ _)
  have hagrees := call_agrees (p := ⟨⟨0, d⟩, []⟩) (r := .expression) hstart hfaces
  obtain ⟨hverdict, -, -⟩ := hagrees.of_outcome ho
  have hrefused : Fragment.push limit (.inside (.assign "" true) (List.replicate d .group) .operand)
      t = .error (.unexpected t) := by
    rw [push_inside (by simp)]
    cases t with
    | symbol symbol => cases symbol <;> first | rfl | cases ht
    | _ => cases ht
  rw [hend, List.drop_length, Fragment.verdictIn, List.drop_zero,
    Fragment.verdict_of_refused hrefused] at hverdict
  split at hverdict <;> exact finishAfter_ne_malformed _ _ _ hverdict.symm

theorem ReadsAlone.ne_nil (h : ReadsAlone limit d item e) (hd : d ≤ limit) : item ≠ [] := by
  obtain ⟨u, ho, hend⟩ := h
  have hstart : (Place.mk 0 d).Between d limit item.length :=
    ⟨Nat.le_refl d, hd, Nat.zero_le _⟩
  have hread : 0 < u.place.position :=
    ((call_neutral (r := .expression) (t := ⟨⟨0, d⟩, []⟩) hstart).of_outcome ho).reads e rfl rfl
  rw [hend] at hread
  exact List.ne_nil_of_length_pos hread

/-- An item is read among others at the depth that it is read at alone. -/
theorem ReadsAlone.among (h : ReadsAlone limit d item e) (hd : d ≤ limit)
    (hcalls : 11 * (item.length + 1) ≤ calls) (ht : t.endsItem = true) (front back : List Token)
    (passed : List Place) :
    ∃ u, outcome (callWithin limit (front ++ (item ++ t :: back)) calls .expression)
        ⟨⟨front.length, d⟩, passed⟩ = some (.ok e, u) ∧
      u.place = ⟨front.length + item.length, d⟩ := by
  obtain ⟨u, ho, hend⟩ := h
  have hstart : (Place.mk 0 d).Between d limit item.length :=
    ⟨Nat.le_refl d, hd, Nat.zero_le _⟩
  have hback : u.place.depth = d :=
    ((call_neutral (r := .expression) (t := ⟨⟨0, d⟩, []⟩) hstart).of_outcome ho).back e rfl
  have hshift : (Place.mk 0 d).Shifted front.length item.length ⟨front.length, d⟩ :=
    ⟨rfl, rfl, Nat.zero_le _⟩
  obtain ⟨-, v, hv, huv⟩ := callWithin_repeats limit (surrounded_append front item back ht) hcalls
    .expression ⟨⟨0, d⟩, []⟩ ⟨⟨front.length, d⟩, passed⟩ hshift e u ho
  refine ⟨v, hv, ?_⟩
  have hposition := huv.position
  have hdepth := huv.depth
  rw [hend] at hposition
  rw [hback] at hdepth
  exact congr (congrArg Place.mk hposition) hdepth

section Among
variable (front item back : List Token) (t : Token)

theorem getElem?_behind : (front ++ (item ++ t :: back))[front.length + item.length]? = some t := by
  rw [List.getElem?_append_right (Nat.le_add_right _ _), Nat.add_sub_cancel_left,
    List.getElem?_append_right (Nat.le_refl _), Nat.sub_self]
  rfl

theorem getElem?_front (hne : item ≠ []) :
    (front ++ (item ++ t :: back))[front.length]? = item.head? := by
  obtain ⟨first, rest, rfl⟩ := List.exists_cons_of_ne_nil hne
  rw [List.getElem?_append_right (Nat.le_refl _), Nat.sub_self]
  rfl

end Among

def afterItem (tokens : List Token) (close : Symbol) (more : Descent Expr) (whole : Expr) :
    Descent Expr := do
  if ← eat tokens (.symbol .comma) then more
  else
    expect tokens (.symbol close)
    pure whole

/-- A routine that reads items up to a closing symbol, behind some of them. -/
structure Encloses (limit d : Nat) (Item : List Token → α → Prop) (close : Symbol)
    (loop : List α → Routine) (build : List α → Expr) : Prop where
  close_ends : (Token.symbol close).endsItem = true
  close_ne : close ≠ .comma
  done : ∀ {tokens : List Token} {p : Trail} (calls : Nat) (reversed : List α),
    tokens[p.place.position]? = some (.symbol close) →
      outcome (callWithin limit tokens (calls + 1) (loop reversed)) p =
        some (.ok (build reversed.reverse), p.advance)
  item : ∀ {ts : List Token} {x : α} {t : Token} (calls : Nat) (reversed : List α)
    (front back : List Token) (passed : List Place), Item ts x →
      11 * (ts.length + 1) ≤ calls → t.endsItem = true →
      ∃ u, u.place = ⟨front.length + ts.length, d⟩ ∧
        outcome (callWithin limit (front ++ (ts ++ t :: back)) (calls + 1) (loop reversed))
            ⟨⟨front.length, d⟩, passed⟩ =
          outcome (afterItem (front ++ (ts ++ t :: back)) close
            (callWithin limit (front ++ (ts ++ t :: back)) calls (loop (x :: reversed)))
            (build (x :: reversed).reverse)) u

/-- Siblings are read one behind the other, each at the same depth. -/
theorem Encloses.reads {Item : List Token → α → Prop} {close : Symbol} {loop : List α → Routine}
    {build : List α → Expr} (hloop : Encloses limit d Item close loop build) {xs : List α}
    (h : Siblings Item ts xs) (hcalls : 11 * (ts.length + 2) ≤ calls) (reversed : List α)
    (front back : List Token) (passed : List Place) :
    ∃ u, outcome (callWithin limit (front ++ (ts ++ .symbol close :: back)) calls (loop reversed))
        ⟨⟨front.length, d⟩, passed⟩ = some (.ok (build (reversed.reverse ++ xs)), u) ∧
      u.place = ⟨front.length + ts.length + 1, d⟩ := by
  induction h generalizing reversed front passed calls with
  | none =>
    obtain ⟨calls, rfl⟩ := Nat.exists_eq_succ_of_ne_zero (by omega : calls ≠ 0)
    have hclose : (front ++ ([] ++ Token.symbol close :: back))[front.length]? =
        some (.symbol close) := getElem?_behind front [] back _
    refine ⟨Trail.advance ⟨⟨front.length, d⟩, passed⟩, ?_, rfl⟩
    rw [List.append_nil]
    exact hloop.done calls reversed hclose
  | @last ts x hitem =>
    obtain ⟨calls, rfl⟩ := Nat.exists_eq_succ_of_ne_zero (by omega : calls ≠ 0)
    obtain ⟨u, hu, ho⟩ :=
      hloop.item calls reversed front back passed hitem (by omega) hloop.close_ends
    have hclose : (front ++ (ts ++ Token.symbol close :: back))[u.place.position]? =
        some (.symbol close) := by
      rw [hu]
      exact getElem?_behind _ _ _ _
    refine ⟨u.advance, ?_, ?_⟩
    · rw [ho, afterItem, outcome_eat_bind, hclose, if_neg (by simpa using hloop.close_ne),
        if_neg (by decide), outcome_expect_bind, hclose]
      simp only [if_true, List.reverse_cons]
      rfl
    · simp only [Trail.advance, Trail.moveTo, hu]
  | @more item rest x xs hitem hs ih =>
    simp only [List.length_append, List.length_cons] at hcalls ⊢
    obtain ⟨calls, rfl⟩ := Nat.exists_eq_succ_of_ne_zero (by omega : calls ≠ 0)
    have houter : front ++ (item ++ .symbol .comma :: rest ++ .symbol close :: back) =
        front ++ (item ++ .symbol .comma :: (rest ++ .symbol close :: back)) := by simp
    have hagain : front ++ (item ++ .symbol .comma :: (rest ++ .symbol close :: back)) =
        front ++ item ++ [.symbol .comma] ++ (rest ++ .symbol close :: back) := by simp
    obtain ⟨u, hu, ho⟩ := hloop.item (t := .symbol .comma) calls reversed front
      (rest ++ .symbol close :: back) passed hitem (by omega) rfl
    have hcomma : (front ++ (item ++ .symbol .comma :: (rest ++ .symbol close :: back)))[
        u.place.position]? = some (.symbol .comma) := by
      rw [hu]
      exact getElem?_behind _ _ _ _
    have hnext : u.advance = ⟨⟨(front ++ item ++ [Token.symbol .comma]).length, d⟩, u.places⟩ := by
      simp [Trail.advance, Trail.moveTo, hu, Nat.add_assoc]
    obtain ⟨v, hv, hend⟩ := ih (show 11 * (rest.length + 2) ≤ calls by omega) (x :: reversed)
      (front ++ item ++ [.symbol .comma]) u.places
    refine ⟨v, ?_, ?_⟩
    · rw [houter, ho, afterItem, outcome_eat_bind, if_pos hcomma, if_pos rfl, hnext, hagain, hv]
      simp
    · rw [hend]
      simp only [List.length_append, List.length_cons, List.length_nil, Place.mk.injEq, and_true]
      omega

theorem encloses_list (hd : d ≤ limit) (kind : ListKind) :
    Encloses limit d (ReadsAlone limit d) kind.close (.list kind) kind.build where
  close_ends := by cases kind <;> rfl
  close_ne := by cases kind <;> simp [ListKind.close]
  done calls reversed hclose := by
    simp only [callWithin, body]
    rw [outcome_eat_bind, if_pos hclose]
    rfl
  item {ts e t} calls reversed front back passed hitem hcalls ht := by
    obtain ⟨u, ho, hu⟩ := hitem.among hd hcalls ht front back passed
    refine ⟨u, hu, ?_⟩
    have hopen : (front ++ (ts ++ t :: back))[front.length]? ≠ some (.symbol kind.close) := by
      rw [getElem?_front _ _ _ _ (hitem.ne_nil hd)]
      exact hitem.head?_ne hd (by cases kind <;> rfl)
    simp only [callWithin, body]
    rw [outcome_eat_bind, if_neg hopen, if_neg (by decide), outcome_bind, ho]
    rfl

theorem encloses_object (hd : d ≤ limit) :
    Encloses limit d (EntryAlone limit d) .closeBrace .object .object where
  close_ends := rfl
  close_ne := by decide
  done calls reversed hclose := by
    simp only [callWithin, body]
    rw [outcome_eat_bind, if_pos hclose]
    rfl
  item {ts entry t} calls reversed front back passed hentry hcalls ht := by
    obtain ⟨token, value, rfl, hkey, hvalue⟩ := hentry
    have houter : front ++ (token :: .symbol .colon :: value ++ t :: back) =
        front ++ [token, .symbol .colon] ++ (value ++ t :: back) := by simp
    have htoken : (front ++ (token :: .symbol .colon :: value ++ t :: back))[front.length]? =
        some token := by simp
    have hcolon : (front ++ (token :: .symbol .colon :: value ++ t :: back))[
        (Trail.advance ⟨⟨front.length, d⟩, passed⟩).place.position]? = some (.symbol .colon) := by
      simp [Trail.advance, Trail.moveTo]
    have hopen : some token ≠ some (.symbol .closeBrace) := by
      rintro ⟨⟩
      cases hkey
    simp only [List.length_cons] at hcalls
    obtain ⟨u, ho, hu⟩ := hvalue.among hd (show 11 * (value.length + 1) ≤ calls by omega) ht
      (front ++ [token, .symbol .colon]) back
      (Trail.advance ⟨⟨front.length, d⟩, passed⟩).places
    have hstart : (Trail.advance ⟨⟨front.length, d⟩, passed⟩).advance =
        ⟨⟨(front ++ [token, .symbol .colon]).length, d⟩,
          (Trail.advance ⟨⟨front.length, d⟩, passed⟩).places⟩ := by
      simp [Trail.advance, Trail.moveTo]
    refine ⟨u, ?_, ?_⟩
    · rw [hu]
      simp only [List.length_append, List.length_cons, List.length_nil, Place.mk.injEq, and_true]
      omega
    · simp only [callWithin, body]
      rw [outcome_eat_bind, htoken, if_neg hopen, if_neg (by decide), outcome_next_bind, htoken]
      dsimp only
      rw [hkey]
      dsimp only
      rw [outcome_expect_bind, hcolon]
      dsimp only
      rw [if_pos rfl, hstart, outcome_bind, houter, ho]
      rfl

/-- Units are read as by descent. A routine that is called within the limit comes to an end: its
depth stays between the one that it was called at and the limit, its position never goes back or
past the last token, and if it succeeds the depth is what it was. So siblings that can each be read
at a depth can all be read there. -/
theorem descent_keeps_depth :
    (∀ tokens, ∃ u, outcome (unit maxDepth tokens) {} = some (Statement.ofTokens tokens, u)) ∧
    (∀ tokens r t, r.isLoop = false → t.place.position ≤ tokens.length →
      t.place.depth ≤ maxDepth → ∃ result u seen,
        outcome (call maxDepth tokens r) t = some (result, u) ∧ u.places = seen ++ t.places ∧
        (∀ p ∈ seen, t.place.depth ≤ p.depth ∧ p.depth ≤ maxDepth ∧
          p.position ≤ tokens.length) ∧
        (seen ++ [t.place]).Pairwise (fun later earlier => earlier.position ≤ later.position) ∧
        ∀ e, result = .ok e → u.place.depth = t.place.depth) ∧
    (∀ d ≤ maxDepth, ∀ kind ts es front back passed, Siblings (ReadsAlone maxDepth d) ts es →
      ∃ u, outcome (call maxDepth (front ++ (ts ++ .symbol kind.close :: back)) (.list kind []))
          ⟨⟨front.length, d⟩, passed⟩ = some (.ok (kind.build es), u) ∧
        u.place = ⟨front.length + ts.length + 1, d⟩) ∧
    (∀ d ≤ maxDepth, ∀ ts entries front back passed,
      Siblings (EntryAlone maxDepth d) ts entries →
      ∃ u, outcome (call maxDepth (front ++ (ts ++ .symbol .closeBrace :: back)) (.object []))
          ⟨⟨front.length, d⟩, passed⟩ = some (.ok (.object entries), u) ∧
        u.place = ⟨front.length + ts.length + 1, d⟩) := by
  refine ⟨fun tokens => ?_, fun tokens r t hloop hposition hdepth => ?_, ?_, ?_⟩
  · obtain ⟨result, u, ho, rfl⟩ := (unit_agrees (by decide : 0 < maxDepth) tokens).exists_outcome
    exact ⟨u, ho⟩
  · have hbase := base_of_not_loop hloop t.place.depth
    have hstart : t.place.Between (r.base t.place.depth) maxDepth tokens.length :=
      ⟨Nat.le_of_eq hbase, hdepth, hposition⟩
    obtain ⟨result, u, ho, hneutral⟩ := (call_neutral hstart).exists_outcome
    obtain ⟨seen, hseen, hbetween, hsorted⟩ := hneutral.goes.exists_seen
    rw [hbase] at hbetween
    refine ⟨result, u, seen, ho, hseen, fun p hp => ?_, hsorted, fun e he => ?_⟩
    · exact ⟨(hbetween p hp).low_le, (hbetween p hp).le_limit, (hbetween p hp).le_last⟩
    · exact (hneutral.back e he).trans hbase
  · intro d hd kind ts es front back passed h
    exact (encloses_list hd kind).reads h (by simp; omega) [] front back passed
  · intro d hd ts entries front back passed h
    exact (encloses_object hd).reads h (by simp; omega) [] front back passed

theorem readsAlone_string (s : String) :
    ReadsAlone maxDepth 127 [.string s] (.literal (.string s)) :=
  ⟨_, rfl, rfl⟩

/-- Where a single level is left a string can be read, and so can lists and objects of them. -/
theorem siblings_read_at_last_level :
    (∃ result u seen, outcome (call maxDepth [.string "a"] .expression) ⟨⟨0, 127⟩, []⟩ =
        some (result, u) ∧ u.places = seen ++ [⟨0, 127⟩] ∧
      (∀ p ∈ seen, 127 ≤ p.depth ∧ p.depth ≤ maxDepth ∧ p.position ≤ 1) ∧
      (seen ++ [⟨0, 127⟩]).Pairwise (fun later earlier => earlier.position ≤ later.position) ∧
      ∀ e, result = .ok e → u.place.depth = 127) ∧
    (∃ u, outcome (call maxDepth [.symbol .openBracket, .string "a", .symbol .comma, .string "b",
        .symbol .comma, .symbol .closeBracket] (.list .array [])) ⟨⟨1, 127⟩, []⟩ =
          some (.ok (.array [.literal (.string "a"), .literal (.string "b")]), u) ∧
      u.place = ⟨6, 127⟩) ∧
    (∃ u, outcome (call maxDepth [.symbol .openBrace, .word "k", .symbol .colon, .string "a",
        .symbol .closeBrace] (.object [])) ⟨⟨1, 127⟩, []⟩ =
          some (.ok (.object [("k", .literal (.string "a"))]), u) ∧
      u.place = ⟨5, 127⟩) := by
  refine ⟨descent_keeps_depth.2.1 [.string "a"] .expression ⟨⟨0, 127⟩, []⟩ rfl (by decide)
    (by decide), ?_, ?_⟩
  · have hitems : Siblings (ReadsAlone maxDepth 127)
        [.string "a", .symbol .comma, .string "b", .symbol .comma]
        [.literal (.string "a"), .literal (.string "b")] :=
      .more (readsAlone_string "a") (.more (readsAlone_string "b") .none)
    have hread := descent_keeps_depth.2.2.1 127 (by decide) .array _ _ [.symbol .openBracket] [] []
      hitems
    exact hread
  · have hentries : Siblings (EntryAlone maxDepth 127) [.word "k", .symbol .colon, .string "a"]
        [("k", .literal (.string "a"))] :=
      .last ⟨_, _, rfl, rfl, readsAlone_string "a"⟩
    have hread := descent_keeps_depth.2.2.2 127 (by decide) _ _ [.symbol .openBrace] [] [] hentries
    exact hread

end PromptLoop.Script.Descent
