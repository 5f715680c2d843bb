import Mathlib.Data.List.Induction
import Mathlib.Data.List.Nodup
import PromptLoop.Bindings

set_option autoImplicit false

namespace PromptLoop.Bindings
variable {α : Type} {name : String}

theorem get?_eq_some_iff {b : Bindings α} (h : b.names.Nodup) {value : α} :
    get? name b = some value ↔ (name, value) ∈ b := by
  induction b with
  | nil => simp [get?]
  | cons entry rest ih =>
    obtain ⟨key, first⟩ := entry
    obtain ⟨hkey, hrest⟩ := List.nodup_cons.1 h
    by_cases hk : key = name
    · subst hk
      have hnone : (key, value) ∉ rest := fun hm =>
        hkey (List.mem_map.2 ⟨(key, value), hm, rfl⟩)
      simp [get?, hnone, eq_comm]
    · simp [get?, hk, ih hrest, Ne.symm hk]

theorem get?_perm {b c : Bindings α} (hp : b.Perm c) (h : b.names.Nodup) :
    get? name b = get? name c := by
  have hc : c.names.Nodup := (hp.map Prod.fst).nodup_iff.1 h
  refine Option.ext fun value => ?_
  rw [get?_eq_some_iff h, get?_eq_some_iff hc, hp.mem_iff]

/-- The last binding moves into the place of the one that is removed. -/
theorem erase_cons_self (value : α) (rest : Bindings α) :
    (erase name ((name, value) :: rest)).Perm rest := by
  rcases List.eq_nil_or_concat rest with rfl | ⟨front, last, rfl⟩
  · simp [erase, List.findIdx?_cons]
  · have hlast : ((name, value) :: (front ++ [last])).getLast? = some last := by
      rw [← List.cons_append, List.getLast?_concat]
    have heq : erase name ((name, value) :: (front ++ [last])) = last :: front := by
      simp only [erase, List.findIdx?_cons, beq_self_eq_true, if_true, hlast, List.set_cons_zero]
      rw [← List.cons_append, List.dropLast_concat]
    rw [List.concat_eq_append, heq]
    exact (List.perm_append_singleton last front).symm

theorem erase_cons_of_ne {key : String} (h : key ≠ name) (value : α) (rest : Bindings α) :
    erase name ((key, value) :: rest) = (key, value) :: erase name rest := by
  have hk : (key == name) = false := by simpa using h
  rcases List.eq_nil_or_concat rest with rfl | ⟨front, last, rfl⟩
  · simp [erase, List.findIdx?_cons, hk]
  · have hlast : ((key, value) :: (front ++ [last])).getLast? = some last := by
      rw [← List.cons_append, List.getLast?_concat]
    simp only [erase, List.findIdx?_cons, List.concat_eq_append, hk, hlast, List.getLast?_concat]
    cases hi : (front ++ [last]).findIdx? (·.1 == name) with
    | none => simp
    | some i =>
      have hne : (front ++ [last]).set i last ≠ [] := by simp
      simp [List.dropLast_cons_of_ne_nil hne]

theorem erase_perm (name : String) (b : Bindings α) :
    (b.erase name).Perm (b.eraseP (·.1 == name)) := by
  induction b with
  | nil => exact .refl _
  | cons entry rest ih =>
    obtain ⟨key, value⟩ := entry
    by_cases hk : key = name
    · subst hk
      rw [List.eraseP_cons_of_pos (by simp)]
      exact erase_cons_self value rest
    · rw [erase_cons_of_ne hk, List.eraseP_cons_of_neg (by simpa using hk)]
      exact ih.cons _

theorem nodup_erase {b : Bindings α} (h : b.names.Nodup) (name : String) :
    (b.erase name).names.Nodup := by
  refine ((erase_perm name b).map Prod.fst).nodup_iff.2 ?_
  exact h.sublist (List.eraseP_sublist.map Prod.fst)

theorem get?_erase {b : Bindings α} (h : b.names.Nodup) (name other : String) :
    get? other (b.erase name) = if other = name then none else get? other b := by
  rw [get?_perm (erase_perm name b) (nodup_erase h name)]
  induction b with
  | nil => simp [get?]
  | cons entry rest ih =>
    obtain ⟨key, value⟩ := entry
    obtain ⟨hkey, hrest⟩ := List.nodup_cons.1 h
    by_cases hk : key = name
    · subst hk
      rw [List.eraseP_cons_of_pos (by simp)]
      by_cases ho : other = key
      · subst ho
        rw [if_pos rfl, Option.eq_none_iff_forall_ne_some]
        intro v hv
        exact hkey (List.mem_map.2 ⟨(other, v), (get?_eq_some_iff hrest).1 hv, rfl⟩)
      · simp [get?, ho, Ne.symm ho]
    · rw [List.eraseP_cons_of_neg (by simpa using hk)]
      by_cases ho : key = other
      · subst ho
        simp [get?, hk]
      · simp only [get?, if_neg ho]
        exact ih hrest

theorem nodup_insert {b : Bindings α} (h : b.names.Nodup) (name : String) (value : α) :
    (b.insert name value).names.Nodup := by
  rw [names_insert]
  split
  · exact h
  · rename_i hn
    exact List.concat_eq_append ▸ h.concat hn

theorem get?_insert (b : Bindings α) (key name : String) (value : α) :
    get? name (b.insert key value) = if key = name then some value else get? name b := by
  by_cases hk : key = name
  · subst hk
    rw [if_pos rfl, get?_insert_self]
  · rw [if_neg hk, get?_insert_of_ne (Ne.symm hk)]

section Extend
variable {entry : String × α}

theorem mem_of_mem_insert {name : String} {value : α} {b : Bindings α}
    (h : entry ∈ b.insert name value) : entry = (name, value) ∨ entry ∈ b := by
  induction b with
  | nil => exact .inl (List.mem_singleton.1 h)
  | cons first rest ih =>
    obtain ⟨key, old⟩ := first
    unfold insert at h
    split at h
    · rename_i hkey
      subst hkey
      exact (List.mem_cons.1 h).imp_right (List.mem_cons_of_mem _)
    · rcases List.mem_cons.1 h with rfl | h
      · exact .inr List.mem_cons_self
      · exact (ih h).imp_right (List.mem_cons_of_mem _)

theorem mem_of_mem_extend {others b : Bindings α} (h : entry ∈ b.extend others) :
    entry ∈ b ∨ entry ∈ others := by
  induction others generalizing b with
  | nil => exact .inl h
  | cons first rest ih =>
    rcases ih h with h | h
    · rcases mem_of_mem_insert h with rfl | h
      · exact .inr List.mem_cons_self
      · exact .inl h
    · exact .inr (List.mem_cons_of_mem _ h)

theorem insert_of_not_mem {name : String} {b : Bindings α} (h : name ∉ b.names) (value : α) :
    b.insert name value = b ++ [(name, value)] := by
  induction b with
  | nil => rfl
  | cons first rest ih =>
    obtain ⟨hne, hrest⟩ := List.ne_and_not_mem_of_not_mem_cons h
    unfold insert
    rw [if_neg hne.symm, ih hrest]
    rfl

theorem extend_of_nodup {others b : Bindings α} (h : (names (b ++ others)).Nodup) :
    b.extend others = b ++ others := by
  induction others generalizing b with
  | nil => exact (List.append_nil b).symm
  | cons first rest ih =>
    have hnames : names (b ++ first :: rest) = names b ++ first.1 :: names rest := by
      simp [names]
    have hfirst : first.1 ∉ names b := by
      rw [hnames] at h
      intro hmem
      exact (List.nodup_append.1 h).2.2 _ hmem _ List.mem_cons_self rfl
    have happend : b ++ first :: rest = b ++ [first] ++ rest := by simp
    rw [happend] at h ⊢
    have hinsert : b.insert first.1 first.2 = b ++ [first] := insert_of_not_mem hfirst first.2
    rw [← ih h, ← hinsert]
    rfl

theorem ofList_of_nodup {entries : Bindings α} (h : entries.names.Nodup) :
    ofList entries = entries :=
  extend_of_nodup h

theorem ofList_concat (entries : List (String × α)) (entry : String × α) :
    ofList (entries ++ [entry]) = (ofList entries).insert entry.1 entry.2 :=
  List.foldl_concat _ _ _ _

theorem nodup_ofList (entries : List (String × α)) : (ofList entries).names.Nodup := by
  induction entries using List.reverseRec with
  | nil => exact List.nodup_nil
  | append_singleton entries entry ih =>
    rw [ofList_concat]
    exact nodup_insert ih entry.1 entry.2

theorem ofList_append (front back : List (String × α)) :
    ofList (front ++ back) = (ofList front).extend back :=
  List.foldl_append

theorem extend_nil_ofList (entries : List (String × α)) :
    extend [] (ofList entries) = ofList entries :=
  ofList_of_nodup (nodup_ofList entries)

theorem names_ofList (entries : List (String × α)) :
    (ofList entries).names = (entries.map Prod.fst).eraseDups := by
  induction entries using List.reverseRec with
  | nil => rfl
  | append_singleton entries entry ih =>
    rw [ofList_concat, names_insert, ih, List.map_append, List.eraseDups_append]
    by_cases h : entry.1 ∈ entries.map Prod.fst
    · rw [if_pos (List.mem_eraseDups.2 h)]
      simp [List.removeAll, h]
    · rw [if_neg (mt List.mem_eraseDups.1 h)]
      simp [List.removeAll, h, List.eraseDups_cons]

theorem get?_ofList (entries : List (String × α)) (name : String) :
    get? name (ofList entries) = entries.reverse.lookup name := by
  induction entries using List.reverseRec with
  | nil => rfl
  | append_singleton entries entry ih =>
    rw [ofList_concat, get?_insert, List.reverse_concat, List.lookup_cons, ih]
    by_cases h : entry.1 = name
    · simp [h]
    · have hne : (name == entry.1) = false := by simpa using Ne.symm h
      rw [if_neg h, hne]

end Extend

end PromptLoop.Bindings
