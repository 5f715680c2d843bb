import Mathlib.Data.List.Forall2
import Mathlib.Data.List.Perm.Subperm
import PromptLoop.Proofs.Number.Format
import PromptLoop.Proofs.Value.DistinctKeys
import PromptLoop.Script.Eval
import PromptLoop.Script.Parse

set_option autoImplicit false

namespace PromptLoop

namespace Binary64

def value (x : Binary64) : ℚ :=
  x.signed * (2 : ℚ) ^ x.exponent

theorem scaled_mul_pow {x : Binary64} {e : Int} (h : e ≤ x.exponent) :
    (x.scaled e : ℚ) * (2 : ℚ) ^ e = x.value := by
  obtain ⟨k, hk⟩ := Int.le.dest h
  have hshift : (x.exponent - e).toNat = k := by omega
  have hpow : (((Nat.pow 2 k : Nat) : Int) : ℚ) = (2 : ℚ) ^ k :=
    (Int.cast_natCast _).trans (cast_two_pow k)
  unfold scaled value
  rw [hshift, Int.cast_mul, hpow, mul_assoc, ← zpow_natCast, ← zpow_add₀ two_ne_zero, Int.add_comm,
    hk]

theorem same_iff {x y : Binary64} : x.same y = true ↔ x.value = y.value := by
  have hx := scaled_mul_pow (Int.min_le_left x.exponent y.exponent)
  have hy := scaled_mul_pow (Int.min_le_right x.exponent y.exponent)
  have hpos : (2 : ℚ) ^ min x.exponent y.exponent ≠ 0 := zpow_ne_zero _ two_ne_zero
  unfold same order
  rw [beq_iff_eq, compare_eq_iff_eq, ← hx, ← hy, mul_left_inj' hpos, Int.cast_inj]

end Binary64

namespace Number

/-- Two integers have one form only if they are one integer; reals need not be told apart by more
than their values. -/
def SameForm : Number → Number → Prop
  | .integer a, .integer b => a = b
  | .real _, .real _ => True
  | .integer _, .real _ => False
  | .real _, .integer _ => False

theorem same_iff {m n : Number} :
    m.same n = true ↔ m.toBinary64.value = n.toBinary64.value ∧ SameForm m n := by
  cases m with
  | integer a =>
    cases n with
    | integer b =>
      refine beq_iff_eq.trans ⟨?_, And.right⟩
      rintro rfl
      exact ⟨rfl, rfl⟩
    | real y => simp [same, SameForm]
  | real x =>
    cases n with
    | integer b => simp [same, SameForm]
    | real y => exact Binary64.same_iff.trans (and_iff_left trivial).symm

theorem same_refl (n : Number) : n.same n = true := by
  cases n with
  | integer a => exact same_iff.2 ⟨rfl, rfl⟩
  | real x => exact same_iff.2 ⟨rfl, trivial⟩

theorem SameForm.symm {m n : Number} (h : SameForm m n) : SameForm n m := by
  cases m <;> cases n <;> first | exact Eq.symm h | exact h

theorem SameForm.trans {l m n : Number} (h : SameForm l m) (h' : SameForm m n) : SameForm l n := by
  cases l <;> cases m <;> cases n <;> simp_all [SameForm]

theorem same_symm {m n : Number} (h : m.same n = true) : n.same m = true := by
  obtain ⟨hvalue, hform⟩ := same_iff.1 h
  exact same_iff.2 ⟨hvalue.symm, hform.symm⟩

theorem same_trans {l m n : Number} (h : l.same m = true) (h' : m.same n = true) :
    l.same n = true := by
  obtain ⟨hvalue, hform⟩ := same_iff.1 h
  obtain ⟨hvalue', hform'⟩ := same_iff.1 h'
  exact same_iff.2 ⟨hvalue.trans hvalue', hform.trans hform'⟩

end Number

namespace Bindings
variable {α : Type}

theorem get?_eq_none_iff {name : String} {b : Bindings α} :
    get? name b = none ↔ name ∉ b.names := by
  induction b with
  | nil => simp [get?, names]
  | cons entry rest ih =>
    obtain ⟨key, value⟩ := entry
    by_cases hk : key = name
    · simp [get?, names, hk]
    · simpa [get?, names, hk, Ne.symm hk] using ih

end Bindings

namespace Value

variable {w : Value}

theorem same_null_iff : same .null w = true ↔ w = .null := by
  cases w <;> simp [same]

theorem same_bool_iff {b : Bool} : same (.bool b) w = true ↔ w = .bool b := by
  cases w with
  | bool c => simp [same, Eq.comm (a := b)]
  | _ => simp [same]

theorem same_string_iff {s : String} : same (.string s) w = true ↔ w = .string s := by
  cases w with
  | string t => simp [same, Eq.comm (a := s)]
  | _ => simp [same]

theorem same_number_iff {m : Number} :
    same (.number m) w = true ↔ ∃ n, w = .number n ∧ m.same n = true := by
  cases w <;> simp [same]

theorem sameItems_iff {as bs : List Value} :
    sameItems as bs = true ↔ List.Forall₂ (fun a b => same a b = true) as bs := by
  induction as generalizing bs with
  | nil => cases bs <;> simp [sameItems]
  | cons a as ih => cases bs <;> simp [sameItems, ih]

theorem same_array_iff {as : List Value} :
    same (.array as) w = true ↔
      ∃ bs, w = .array bs ∧ List.Forall₂ (fun a b => same a b = true) as bs := by
  cases w <;> simp [same, sameItems_iff]

theorem object_of_same {as : Bindings Value} (h : same (.object as) w = true) :
    ∃ bs, w = .object bs := by
  cases w with
  | object bs => exact ⟨bs, rfl⟩
  | _ => cases h

theorem sameEntries_iff {as bs : Bindings Value} :
    sameEntries as bs = true ↔
      ∀ entry ∈ as, ∃ w, Bindings.get? entry.1 bs = some w ∧ same entry.2 w = true := by
  induction as with
  | nil => simp [sameEntries]
  | cons entry rest ih =>
    have hentry : sameEntry entry bs = true ↔
        ∃ w, Bindings.get? entry.1 bs = some w ∧ same entry.2 w = true := by
      unfold sameEntry
      split <;> simp_all
    rw [sameEntries, Bool.and_eq_true, ih, hentry, List.forall_mem_cons]

section Rel
variable {α β : Type} {R : α → β → Prop} {a : Option α} {b : Option β}

theorem rel_some_iff {v : α} : Option.Rel R (some v) b ↔ ∃ w, b = some w ∧ R v w := by
  constructor
  · intro h
    cases h with
    | some hr => exact ⟨_, rfl, hr⟩
  · rintro ⟨w, rfl, hr⟩
    exact .some hr

theorem rel_none_iff (h : Option.Rel R a b) : a = none ↔ b = none := by
  cases h <;> simp

theorem rel_flip {S : β → α → Prop} (h : Option.Rel R a b)
    (hs : ∀ v w, a = some v → b = some w → R v w → S w v) : Option.Rel S b a := by
  cases h with
  | none => exact .none
  | some hr => exact .some (hs _ _ rfl rfl hr)

theorem rel_comp {γ : Type} {S : β → γ → Prop} {T : α → γ → Prop} {c : Option γ}
    (h : Option.Rel R a b) (h' : Option.Rel S b c)
    (ht : ∀ u v w, a = some u → b = some v → c = some w → R u v → S v w → T u w) :
    Option.Rel T a c := by
  cases h with
  | none =>
    cases h' with
    | none => exact .none
  | some hr =>
    cases h' with
    | some hr' => exact .some (ht _ _ _ rfl rfl rfl hr hr')

end Rel

/-- Objects have the same parts if they have the same keys with the same parts behind them. -/
theorem same_object_iff {as bs : Bindings Value} (ha : as.names.Nodup) (hb : bs.names.Nodup) :
    same (.object as) (.object bs) = true ↔
      ∀ key, Option.Rel (fun v w => same v w = true) (Bindings.get? key as)
        (Bindings.get? key bs) := by
  have hparts : same (.object as) (.object bs) = true ↔
      as.length = bs.length ∧ sameEntries as bs = true := by
    simp [same]
  rw [hparts, sameEntries_iff]
  constructor
  · rintro ⟨hlength, hentries⟩ key
    have hsub : as.names ⊆ bs.names := by
      intro name hname
      obtain ⟨entry, hentry, rfl⟩ := List.mem_map.1 hname
      obtain ⟨w, hw, -⟩ := hentries entry hentry
      exact List.mem_map.2 ⟨_, (Bindings.get?_eq_some_iff hb).1 hw, rfl⟩
    have hperm : as.names.Perm bs.names :=
      (ha.subperm hsub).perm_of_length_le (by simp [Bindings.names, hlength])
    cases hv : Bindings.get? key as with
    | some v =>
      obtain ⟨w, hw, hsame⟩ := hentries _ ((Bindings.get?_eq_some_iff ha).1 hv)
      rw [hw]
      exact .some hsame
    | none =>
      have hkey : key ∉ bs.names := fun hmem =>
        Bindings.get?_eq_none_iff.1 hv (hperm.mem_iff.2 hmem)
      rw [Bindings.get?_eq_none_iff.2 hkey]
      exact .none
  · intro hkeys
    have hmem : ∀ key, key ∈ as.names ↔ key ∈ bs.names := by
      intro key
      rw [← not_iff_not, ← Bindings.get?_eq_none_iff, ← Bindings.get?_eq_none_iff]
      exact rel_none_iff (hkeys key)
    have hperm : as.names.Perm bs.names := (List.perm_ext_iff_of_nodup ha hb).2 hmem
    refine ⟨by simpa [Bindings.names] using hperm.length_eq, fun entry hentry => ?_⟩
    have hkey := hkeys entry.1
    rw [(Bindings.get?_eq_some_iff ha).2 hentry] at hkey
    exact rel_some_iff.1 hkey

theorem same_refl {v : Value} (h : v.KeysDistinct) : same v v = true := by
  induction h with
  | null => rfl
  | bool b => exact same_bool_iff.2 rfl
  | string s => exact same_string_iff.2 rfl
  | number n => exact same_number_iff.2 ⟨n, rfl, n.same_refl⟩
  | array _ ih => exact same_array_iff.2 ⟨_, rfl, List.forall₂_same.2 ih⟩
  | object hnames _ ih =>
    refine (same_object_iff hnames hnames).2 fun key => ?_
    cases hv : Bindings.get? key _ with
    | none => exact .none
    | some v => exact .some (ih _ ((Bindings.get?_eq_some_iff hnames).1 hv))

theorem same_symm {v w : Value} (hv : v.KeysDistinct) (hw : w.KeysDistinct)
    (h : same v w = true) : same w v = true := by
  induction hv generalizing w with
  | null =>
    rw [same_null_iff.1 h]
    rfl
  | bool b =>
    rw [same_bool_iff.1 h]
    exact same_bool_iff.2 rfl
  | string s =>
    rw [same_string_iff.1 h]
    exact same_string_iff.2 rfl
  | number m =>
    obtain ⟨n, rfl, hmn⟩ := same_number_iff.1 h
    exact same_number_iff.2 ⟨m, rfl, Number.same_symm hmn⟩
  | array _ ih =>
    obtain ⟨bs, rfl, hitems⟩ := same_array_iff.1 h
    refine same_array_iff.2 ⟨_, rfl, List.Forall₂.flip (List.forall₂_iff_zip.2 ?_)⟩
    refine ⟨hitems.length_eq, fun {a b} hmem => ?_⟩
    obtain ⟨ha, hb⟩ := List.of_mem_zip hmem
    exact ih a ha (keysDistinct_array_iff.1 hw b hb) (List.forall₂_zip hitems hmem)
  | object hnames _ ih =>
    obtain ⟨bs, rfl⟩ := object_of_same h
    obtain ⟨hnames', hentries'⟩ := keysDistinct_object_iff.1 hw
    refine (same_object_iff hnames' hnames).2 fun key => ?_
    refine rel_flip ((same_object_iff hnames hnames').1 h key) fun a b ha hb hab => ?_
    have ha := (Bindings.get?_eq_some_iff hnames).1 ha
    have hb := (Bindings.get?_eq_some_iff hnames').1 hb
    exact ih _ ha (hentries' _ hb) hab

theorem same_trans {u v w : Value} (hu : u.KeysDistinct) (hv : v.KeysDistinct)
    (hw : w.KeysDistinct) (h : same u v = true) (h' : same v w = true) : same u w = true := by
  induction hu generalizing v w with
  | null => rwa [same_null_iff.1 h] at h'
  | bool b => rwa [same_bool_iff.1 h] at h'
  | string s => rwa [same_string_iff.1 h] at h'
  | number l =>
    obtain ⟨m, rfl, hlm⟩ := same_number_iff.1 h
    obtain ⟨n, rfl, hmn⟩ := same_number_iff.1 h'
    exact same_number_iff.2 ⟨n, rfl, Number.same_trans hlm hmn⟩
  | array _ ih =>
    obtain ⟨bs, rfl, hitems⟩ := same_array_iff.1 h
    obtain ⟨cs, rfl, hitems'⟩ := same_array_iff.1 h'
    have hbs := keysDistinct_array_iff.1 hv
    have hcs := keysDistinct_array_iff.1 hw
    refine same_array_iff.2 ⟨cs, rfl, List.forall₂_iff_get.2 ?_⟩
    refine ⟨hitems.length_eq.trans hitems'.length_eq, fun i ha hc => ?_⟩
    have hb := hitems.length_eq ▸ ha
    exact ih _ (List.get_mem _ _) (hbs _ (List.get_mem _ ⟨i, hb⟩)) (hcs _ (List.get_mem _ _))
      (hitems.get ha hb) (hitems'.get hb hc)
  | object hnames _ ih =>
    obtain ⟨bs, rfl⟩ := object_of_same h
    obtain ⟨cs, rfl⟩ := object_of_same h'
    obtain ⟨hnames', hentries'⟩ := keysDistinct_object_iff.1 hv
    obtain ⟨hnames'', hentries''⟩ := keysDistinct_object_iff.1 hw
    refine (same_object_iff hnames hnames'').2 fun key => ?_
    refine rel_comp ((same_object_iff hnames hnames').1 h key)
      ((same_object_iff hnames' hnames'').1 h' key) fun a b c ha hb hc hab hbc => ?_
    have ha := (Bindings.get?_eq_some_iff hnames).1 ha
    have hb := (Bindings.get?_eq_some_iff hnames').1 hb
    have hc := (Bindings.get?_eq_some_iff hnames'').1 hc
    exact ih _ ha (hentries' _ hb) (hentries'' _ hc) hab hbc

end Value

namespace Script
variable {v w : Value} {m : Number}

def Equal (v w : Value) : Prop :=
  BinaryOp.equal.apply v w = .ok (.bool true)

/-- If both values are numbers, they have one form. -/
def FormsAgree (v w : Value) : Prop :=
  ∀ m n, v = .number m → w = .number n → m.SameForm n

theorem equal_iff : Equal v w ↔ equals v w = true := by
  unfold Equal BinaryOp.apply
  rw [Except.ok.injEq, Value.bool.injEq]

theorem equal_number_iff :
    Equal (.number m) w ↔ ∃ n, w = .number n ∧ m.toBinary64.value = n.toBinary64.value := by
  rw [equal_iff]
  cases w with
  | number n => simp [equals, Value.toBinary64?, Binary64.same_iff]
  | _ => simp [equals, Value.toBinary64?, Value.same]

theorem equal_iff_same (h : v.toBinary64? = none) : Equal v w ↔ v.same w = true := by
  rw [equal_iff]
  unfold equals
  rw [h]

theorem not_number_of_same (h : v.toBinary64? = none) (hs : v.same w = true) :
    w.toBinary64? = none := by
  cases v with
  | number m => cases h
  | _ => cases w <;> first | rfl | cases hs

theorem number_or_not (v : Value) : (∃ n, v = .number n) ∨ v.toBinary64? = none := by
  cases v with
  | number n => exact .inl ⟨n, rfl⟩
  | _ => exact .inr rfl

/-- The comparison of parts is equality with a look at the forms of two numbers. -/
theorem same_iff : v.same w = true ↔ Equal v w ∧ FormsAgree v w := by
  rcases number_or_not v with ⟨m, rfl⟩ | hv
  · rw [Value.same_number_iff, equal_number_iff]
    constructor
    · rintro ⟨n, rfl, h⟩
      obtain ⟨hvalue, hform⟩ := Number.same_iff.1 h
      refine ⟨⟨n, rfl, hvalue⟩, ?_⟩
      rintro _ _ ⟨⟩ ⟨⟩
      exact hform
    · rintro ⟨⟨n, rfl, hvalue⟩, hforms⟩
      exact ⟨n, rfl, Number.same_iff.2 ⟨hvalue, hforms m n rfl rfl⟩⟩
  · have hforms : FormsAgree v w := by
      rintro m n rfl -
      cases hv
    rw [equal_iff_same hv, and_iff_left hforms]

theorem equal_refl (hv : v.KeysDistinct) : Equal v v := by
  rcases number_or_not v with ⟨n, rfl⟩ | hn
  · exact equal_number_iff.2 ⟨n, rfl, rfl⟩
  · exact (equal_iff_same hn).2 (Value.same_refl hv)

theorem Equal.symm (hv : v.KeysDistinct) (hw : w.KeysDistinct) (h : Equal v w) : Equal w v := by
  rcases number_or_not v with ⟨m, rfl⟩ | hn
  · obtain ⟨n, rfl, hvalue⟩ := equal_number_iff.1 h
    exact equal_number_iff.2 ⟨m, rfl, hvalue.symm⟩
  · have hsame := (equal_iff_same hn).1 h
    exact (equal_iff_same (not_number_of_same hn hsame)).2 (Value.same_symm hv hw hsame)

theorem Equal.trans {u : Value} (hu : u.KeysDistinct) (hv : v.KeysDistinct) (hw : w.KeysDistinct)
    (h : Equal u v) (h' : Equal v w) : Equal u w := by
  rcases number_or_not u with ⟨l, rfl⟩ | hn
  · obtain ⟨m, rfl, hvalue⟩ := equal_number_iff.1 h
    obtain ⟨n, rfl, hvalue'⟩ := equal_number_iff.1 h'
    exact equal_number_iff.2 ⟨n, rfl, hvalue.trans hvalue'⟩
  · have hsame := (equal_iff_same hn).1 h
    have hsame' := (equal_iff_same (not_number_of_same hn hsame)).1 h'
    exact (equal_iff_same hn).2 (Value.same_trans hu hv hw hsame hsame')

theorem equal_equivalence :
    Equivalence fun v w : { v : Value // v.KeysDistinct } => Equal v.1 w.1 :=
  ⟨fun v => equal_refl v.2, fun {v w} h => h.symm v.2 w.2,
    fun {u v w} h h' => h.trans u.2 v.2 w.2 h'⟩

theorem equal_array_iff {as bs : List Value} :
    Equal (.array as) (.array bs) ↔ List.Forall₂ (fun v w => Equal v w ∧ FormsAgree v w) as bs := by
  have hparts : Equal (.array as) (.array bs) ↔ Value.sameItems as bs = true :=
    equal_iff_same rfl
  rw [hparts, Value.sameItems_iff]
  simp only [same_iff]

theorem equal_object_iff {as bs : Bindings Value} (ha : as.names.Nodup) (hb : bs.names.Nodup) :
    Equal (.object as) (.object bs) ↔
      ∀ key, Option.Rel (fun v w => Equal v w ∧ FormsAgree v w) (Bindings.get? key as)
        (Bindings.get? key bs) := by
  have hparts : Equal (.object as) (.object bs) ↔ Value.same (.object as) (.object bs) = true :=
    equal_iff_same rfl
  rw [hparts, Value.same_object_iff ha hb]
  simp only [same_iff]

/-- Equality is an equivalence relation on the values that a text can write, and compares numbers by
value. Arrays are equal if they are as long and their items are equal, objects if they have the same
keys and what stands behind them is equal, in either case with numbers in one form. -/
theorem equality_looks_at_forms_in_containers (as bs : List Value) {es fs : Bindings Value}
    (he : es.names.Nodup) (hf : fs.names.Nodup) :
    (∀ s v, Value.ofText? s = some v → v.KeysDistinct) ∧
      Equivalence (fun v w : { v : Value // v.KeysDistinct } => Equal v.1 w.1) ∧
      (∀ m n : Number, Equal (.number m) (.number n) ↔
        m.toBinary64.value = n.toBinary64.value) ∧
      (Equal (.array as) (.array bs) ↔
        List.Forall₂ (fun v w => Equal v w ∧ FormsAgree v w) as bs) ∧
      (Equal (.object es) (.object fs) ↔
        ∀ key, Option.Rel (fun v w => Equal v w ∧ FormsAgree v w) (Bindings.get? key es)
          (Bindings.get? key fs)) := by
  refine ⟨fun _ _ => Value.keysDistinct_of_ofText?, equal_equivalence, fun m n => ?_,
    equal_array_iff, equal_object_iff he hf⟩
  rw [equal_number_iff]
  constructor
  · rintro ⟨_, ⟨⟩, hvalue⟩
    exact hvalue
  · exact fun hvalue => ⟨n, rfl, hvalue⟩

theorem objects_equal_in_other_order :
    let as : Bindings Value := [("a", .number (.integer 1)), ("b", .null)]
    let bs : Bindings Value := [("b", .null), ("a", .number (.integer 1))]
    Value.ofText? "\x7b\"a\": 1, \"b\": null\x7d" = some (.object as) ∧
      (Value.object as).KeysDistinct ∧ as.names.Nodup ∧ bs.names.Nodup ∧
      Equal (.object as) (.object bs) := by
  intro as bs
  have hread : Value.ofText? "\x7b\"a\": 1, \"b\": null\x7d" = some (.object as) := by rfl
  have ha : as.names.Nodup := by decide
  have hb : bs.names.Nodup := by decide
  obtain ⟨hdistinct, -, hnumbers, -, hobjects⟩ :=
    equality_looks_at_forms_in_containers [] [] ha hb
  refine ⟨hread, hdistinct _ _ hread, ha, hb, hobjects.2 fun key => ?_⟩
  have hone : Equal (.number (.integer 1)) (.number (.integer 1)) := (hnumbers _ _).2 rfl
  by_cases hkey : key = "a"
  · subst hkey
    refine .some ⟨hone, ?_⟩
    rintro _ _ ⟨⟩ ⟨⟩
    rfl
  · by_cases hkey' : key = "b"
    · subst hkey'
      refine .some ⟨rfl, ?_⟩
      rintro _ _ ⟨⟩
    · have hkeys : Bindings.get? key as = none ∧ Bindings.get? key bs = none := by
        simp [as, bs, Bindings.get?, Ne.symm hkey, Ne.symm hkey']
      rw [hkeys.1, hkeys.2]
      exact .none

/-- Two names that stand for `1` and `1.0` are equal; in brackets they are not. -/
theorem equal_names_unequal_in_brackets :
    let scope : Bindings Value :=
      [("x", .number (.integer 1)), ("y", .number (.real ⟨false, 4503599627370496, -52⟩))]
    Value.ofText? "1.0" = some (.number (.real ⟨false, 4503599627370496, -52⟩)) ∧
      ((Statement.parse "x == y".toList).toOption.map (·.run scope)) =
        some (.ok (some (.bool true))) ∧
      ((Statement.parse "[x] == [y]".toList).toOption.map (·.run scope)) =
        some (.ok (some (.bool false))) := by
  exact ⟨by rfl, by rfl, by rfl⟩

end Script
end PromptLoop
