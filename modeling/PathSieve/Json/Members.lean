import PathSieve.Json.Value

/-!
# Members by key

An object holds each key once, and its members are looked up by key. `exists_object_ofMembers`
states that any list of members becomes such an object, where the last member of a key counts.
-/

namespace PathSieve.Json

set_option autoImplicit false

def KeysOnce (members : List (String × Value)) : Prop := (members.map Prod.fst).Nodup

instance (members : List (String × Value)) : Decidable (KeysOnce members) :=
  inferInstanceAs (Decidable (List.Nodup _))

theorem KeysOnce.lookup_tail {member : String × Value} {members : List (String × Value)}
    (h : KeysOnce (member :: members)) : members.lookup member.1 = none := by
  rw [List.lookup_eq_none_iff]
  intro other hOther
  rw [bne_iff_ne]
  intro hKey
  exact (List.nodup_cons.mp h).1 (hKey ▸ List.mem_map_of_mem hOther)

theorem lookup_cons_eq (key : String) (member : String × Value) (members : List (String × Value)) :
    (member :: members).lookup key =
      if key = member.1 then some member.2 else members.lookup key := by
  obtain ⟨k, value⟩ := member
  rw [List.lookup_cons]
  by_cases h : key = k
  · rw [if_pos h, beq_iff_eq.mpr h]
  · rw [if_neg h, beq_eq_false_iff_ne.mpr h]

/-- A member goes before the first larger key, or takes the place of its own key. -/
theorem insertMember_cons_cases (key : String) (value : Value) (first : String × Value)
    (rest : List (String × Value)) :
    (key < first.1 ∧ insertMember key value (first :: rest) = (key, value) :: first :: rest) ∨
      (key = first.1 ∧ insertMember key value (first :: rest) = (key, value) :: rest) ∨
      (first.1 < key ∧
        insertMember key value (first :: rest) = first :: insertMember key value rest) := by
  obtain ⟨k, v⟩ := first
  simp only [insertMember]
  by_cases hLt : key < k
  · exact .inl ⟨hLt, if_pos hLt⟩
  · rw [if_neg hLt]
    by_cases hKey : key = k
    · exact .inr (.inl ⟨hKey, if_pos hKey⟩)
    · refine .inr (.inr ⟨Classical.byContradiction fun hNot => hKey ?_, if_neg hKey⟩)
      exact String.le_antisymm (String.not_lt.mp hNot) (String.not_lt.mp hLt)

theorem lookup_insertMember (key : String) (value : Value) (members : List (String × Value))
    (wanted : String) :
    (insertMember key value members).lookup wanted =
      if wanted = key then some value else members.lookup wanted := by
  induction members with
  | nil => exact lookup_cons_eq wanted (key, value) []
  | cons first rest ih =>
    rcases insertMember_cons_cases key value first rest with ⟨_, hEq⟩ | ⟨hKey, hEq⟩ | ⟨hLt, hEq⟩
    · rw [hEq, lookup_cons_eq]
    · rw [hEq, lookup_cons_eq, lookup_cons_eq, hKey]
      simp only
      split <;> rfl
    · rw [hEq, lookup_cons_eq, ih, lookup_cons_eq]
      by_cases hWanted : wanted = first.1
      · rw [if_pos hWanted, if_pos hWanted, if_neg]
        rintro rfl
        exact String.lt_irrefl _ (hWanted ▸ hLt)
      · rw [if_neg hWanted, if_neg hWanted]

theorem lookup_foldl_insertMember (members sorted : List (String × Value)) (wanted : String) :
    (members.foldl (fun sorted member => insertMember member.1 member.2 sorted) sorted).lookup
      wanted = (members.reverse.lookup wanted).or (sorted.lookup wanted) := by
  induction members generalizing sorted with
  | nil => rfl
  | cons member members ih =>
    rw [List.foldl_cons, ih, lookup_insertMember, List.reverse_cons, List.lookup_append,
      lookup_cons_eq, Option.or_assoc]
    split <;> rfl

def Ascending (members : List (String × Value)) : Prop := members.Pairwise (·.1 < ·.1)

theorem Ascending.keysOnce {members : List (String × Value)} (h : Ascending members) :
    KeysOnce members := by
  refine List.pairwise_map.mpr (List.Pairwise.imp ?_ h)
  intro first second hLt hKey
  rw [hKey] at hLt
  exact String.lt_irrefl _ hLt

theorem mem_insertMember {key : String} {value : Value} {members : List (String × Value)}
    {member : String × Value} (h : member ∈ insertMember key value members) :
    member = (key, value) ∨ member ∈ members := by
  induction members with
  | nil => exact .inl (List.mem_singleton.mp h)
  | cons first rest ih =>
    rcases insertMember_cons_cases key value first rest with ⟨_, hEq⟩ | ⟨_, hEq⟩ | ⟨_, hEq⟩
    · rw [hEq] at h
      exact List.mem_cons.mp h
    · rw [hEq] at h
      exact (List.mem_cons.mp h).imp_right (List.mem_cons_of_mem first)
    · rw [hEq] at h
      rcases List.mem_cons.mp h with rfl | h
      · exact .inr List.mem_cons_self
      · exact (ih h).imp_right (List.mem_cons_of_mem first)

theorem Ascending.insert {members : List (String × Value)} (h : Ascending members) (key : String)
    (value : Value) : Ascending (insertMember key value members) := by
  induction members with
  | nil => exact List.pairwise_singleton _ _
  | cons first rest ih =>
    obtain ⟨hFirst, hRest⟩ := List.pairwise_cons.mp h
    rcases insertMember_cons_cases key value first rest with ⟨hLt, hEq⟩ | ⟨hKey, hEq⟩ | ⟨hLt, hEq⟩
    · rw [hEq]
      refine List.pairwise_cons.mpr ⟨?_, h⟩
      intro member hMember
      rcases List.mem_cons.mp hMember with rfl | hMember
      · exact hLt
      · exact String.lt_trans hLt (hFirst member hMember)
    · rw [hEq]
      refine List.pairwise_cons.mpr ⟨?_, hRest⟩
      intro member hMember
      rw [hKey]
      exact hFirst member hMember
    · rw [hEq]
      refine List.pairwise_cons.mpr ⟨?_, ih hRest⟩
      intro member hMember
      rcases mem_insertMember hMember with rfl | hMember
      · exact hLt
      · exact hFirst member hMember

theorem Ascending.foldl_insert {sorted : List (String × Value)} (h : Ascending sorted)
    (members : List (String × Value)) :
    Ascending (members.foldl (fun sorted member => insertMember member.1 member.2 sorted)
      sorted) := by
  induction members generalizing sorted with
  | nil => exact h
  | cons member members ih => exact ih (h.insert member.1 member.2)

theorem exists_object_ofMembers (members : List (String × Value)) :
    ∃ sorted, Value.ofMembers members = .object sorted ∧ KeysOnce sorted ∧
      ∀ key, sorted.lookup key = members.reverse.lookup key := by
  have hAscending : Ascending [] := List.Pairwise.nil
  refine ⟨_, rfl, (hAscending.foldl_insert members).keysOnce, ?_⟩
  intro key
  rw [lookup_foldl_insertMember]
  exact Option.or_none

end PathSieve.Json
