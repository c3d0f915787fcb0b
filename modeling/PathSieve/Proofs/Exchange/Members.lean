import PathSieve.Exchange
import PathSieve.Json.Members

/-!
# Settings and summaries from their members

Members are read one after another, but each field only ever changes with the member of its own
key. So an object is read field by field, in whatever order its members stand and whatever else
they are: `foldlM_eq_ok_iff`. What an object must hold, and what it gives, follows from this for
settings and for summaries, and both are read back from the values they are written as.
-/

namespace PathSieve

set_option autoImplicit false

open Json (Value KeysOnce)

section Fields

variable {α β σ : Type}

theorem bind_eq_ok_iff {e : Except ShapeFault α} {f : α → Except ShapeFault β} {b : β} :
    e.bind f = .ok b ↔ ∃ a, e = .ok a ∧ f a = .ok b := by
  cases e <;> simp [Except.bind]

theorem map_eq_ok_iff {e : Except ShapeFault α} {f : α → β} {b : β} :
    e.map f = .ok b ↔ ∃ a, e = .ok a ∧ f a = b := by
  cases e <;> simp [Except.map]

theorem map_some_map (e : Except ShapeFault α) (f : Option α → β) :
    (e.map some).map f = e.map fun a => f (some a) := by
  cases e <;> rfl

/-! ## One field -/

/-- What a member makes of a field. -/
def TakesMember (key : String) (read : Value → Except ShapeFault α) (x : α)
    (member : String × Value) (y : α) : Prop :=
  if member.1 = key then read member.2 = .ok y else y = x

/-- What an object makes of a field. -/
def Takes (key : String) (read : Value → Except ShapeFault α) (x : α)
    (members : List (String × Value)) (y : α) : Prop :=
  match members.lookup key with
  | some value => read value = .ok y
  | none => y = x

theorem takes_of_lookup_none {key : String} {read : Value → Except ShapeFault α} {x y : α}
    {members : List (String × Value)} (h : members.lookup key = none) :
    Takes key read x members y ↔ y = x := by
  rw [Takes, h]

theorem takes_cons_iff {key : String} {read : Value → Except ShapeFault α} {x y : α}
    {member : String × Value} {members : List (String × Value)}
    (hKeys : KeysOnce (member :: members)) :
    Takes key read x (member :: members) y ↔
      ∃ z, TakesMember key read x member z ∧ Takes key read z members y := by
  by_cases hKey : member.1 = key
  · have hRest := hKeys.lookup_tail
    rw [hKey] at hRest
    simp only [TakesMember, if_pos hKey, takes_of_lookup_none hRest]
    rw [Takes, Json.lookup_cons_eq, if_pos hKey.symm]
    simp
  · simp only [TakesMember, if_neg hKey, exists_eq_left]
    rw [Takes, Json.lookup_cons_eq, if_neg fun h => hKey h.symm]
    rfl

theorem takes_iff_of_write {key : String} {read : Value → Except ShapeFault α}
    {write : α → Value} (hRead : ∀ value x, read value = .ok x ↔ value = write x) {x y : α}
    {members : List (String × Value)} :
    Takes key read x members y ↔
      ∃ given? : Option α, members.lookup key = given?.map write ∧ y = given?.getD x := by
  rw [Takes]
  cases members.lookup key with
  | none =>
    constructor
    · intro h
      exact ⟨none, rfl, h⟩
    · rintro ⟨given?, hGiven, rfl⟩
      rw [Option.map_eq_none_iff.mp hGiven.symm]
      rfl
  | some value =>
    simp only [hRead]
    constructor
    · rintro rfl
      exact ⟨some y, rfl, rfl⟩
    · rintro ⟨given?, hGiven, rfl⟩
      obtain ⟨z, rfl, hValue⟩ := Option.map_eq_some_iff.mp hGiven.symm
      exact hValue.symm

theorem takes_none_iff {key : String} {read : Value → Except ShapeFault α} {y : α}
    {members : List (String × Value)} :
    Takes key (fun value => (read value).map some) none members (some y) ↔
      ∃ value, members.lookup key = some value ∧ read value = .ok y := by
  rw [Takes]
  cases members.lookup key with
  | none => simp
  | some value => simp [map_eq_ok_iff]

/-! ## Two fields -/

variable {key₁ key₂ : String} {read₁ : Value → Except ShapeFault α}
  {read₂ : Value → Except ShapeFault β} {make : α → β → σ}
  {step : σ → String × Value → Except ShapeFault σ}

/-- A step that reads a member for the first field, for the second, or for none. -/
def ReadsFields (key₁ key₂ : String) (read₁ : Value → Except ShapeFault α)
    (read₂ : Value → Except ShapeFault β) (make : α → β → σ)
    (step : σ → String × Value → Except ShapeFault σ) : Prop :=
  ∀ x y member, step (make x y) member =
    if member.1 = key₁ then (read₁ member.2).map fun x => make x y
    else if member.1 = key₂ then (read₂ member.2).map fun y => make x y
    else .ok (make x y)

theorem ReadsFields.step_eq_ok_iff (h : ReadsFields key₁ key₂ read₁ read₂ make step)
    (hKeys : key₁ ≠ key₂) (x : α) (y : β) (member : String × Value) (s : σ) :
    step (make x y) member = .ok s ↔ ∃ x' y', TakesMember key₁ read₁ x member x' ∧
      TakesMember key₂ read₂ y member y' ∧ make x' y' = s := by
  rw [h]
  by_cases hFirst : member.1 = key₁
  · have hSecond : member.1 ≠ key₂ := fun hEq => hKeys (hFirst.symm.trans hEq)
    simp only [TakesMember, if_pos hFirst, if_neg hSecond, map_eq_ok_iff]
    simp
  · by_cases hSecond : member.1 = key₂
    · simp only [TakesMember, if_neg hFirst, if_pos hSecond, map_eq_ok_iff]
      simp
    · simp only [TakesMember, if_neg hFirst, if_neg hSecond]
      simp

theorem ReadsFields.foldlM_eq_ok_iff (h : ReadsFields key₁ key₂ read₁ read₂ make step)
    (hKeys : key₁ ≠ key₂) {members : List (String × Value)} (hOnce : KeysOnce members) (x : α)
    (y : β) (s : σ) :
    members.foldlM step (make x y) = .ok s ↔ ∃ x' y', Takes key₁ read₁ x members x' ∧
      Takes key₂ read₂ y members y' ∧ make x' y' = s := by
  induction members generalizing x y with
  | nil =>
    simp only [takes_of_lookup_none List.lookup_nil]
    constructor
    · intro h
      exact ⟨x, y, rfl, rfl, Except.ok.inj h⟩
    · rintro ⟨_, _, rfl, rfl, rfl⟩
      rfl
  | cons member members ih =>
    have hRest : KeysOnce members := (List.nodup_cons.mp hOnce).2
    rw [List.foldlM_cons]
    refine bind_eq_ok_iff.trans ?_
    simp only [h.step_eq_ok_iff hKeys, takes_cons_iff hOnce]
    constructor
    · rintro ⟨_, ⟨x₁, y₁, hx, hy, rfl⟩, hFold⟩
      obtain ⟨x', y', hx', hy', rfl⟩ := (ih hRest x₁ y₁).mp hFold
      exact ⟨x', y', ⟨x₁, hx, hx'⟩, ⟨y₁, hy, hy'⟩, rfl⟩
    · rintro ⟨x', y', ⟨x₁, hx, hx'⟩, ⟨y₁, hy, hy'⟩, rfl⟩
      exact ⟨_, ⟨x₁, y₁, hx, hy, rfl⟩, (ih hRest x₁ y₁).mpr ⟨x', y', hx', hy', rfl⟩⟩

end Fields

/-! ## Values of one type -/

theorem textOf_eq_ok_iff (value : Value) (s : String) : textOf value = .ok s ↔ value = .string s := by
  cases value <;> simp [textOf]

theorem flagOf_eq_ok_iff (value : Value) (b : Bool) : flagOf value = .ok b ↔ value = .flag b := by
  cases value <;> simp [flagOf]

theorem countOf_eq_ok_iff (value : Value) (n : Nat) :
    countOf value = .ok n ↔ value = .integer n ∧ n < UInt64.size := by
  cases value with
  | integer m =>
    simp only [countOf, Value.integer.injEq]
    split
    · rename_i hRange
      have hSize : m.toNat < UInt64.size := hRange.2
      rw [Except.ok.injEq]
      omega
    · rename_i hRange
      have hSize : ¬ (0 ≤ m ∧ m.toNat < UInt64.size) := hRange
      refine iff_of_false nofun ?_
      omega
  | _ => simp [countOf]

/-! ## Objects -/

namespace Settings

theorem ofMembers_eq_ok_iff {members : List (String × Value)} (hOnce : KeysOnce members)
    (settings : Settings) :
    ofMembers members = .ok settings ↔
      ∃ fileName? withBuiltins?, members.lookup fileNameKey = fileName?.map .string ∧
        members.lookup withBuiltinsKey = withBuiltins?.map .flag ∧
        settings = standard.overlay fileName? withBuiltins? := by
  have hReads : ReadsFields fileNameKey withBuiltinsKey textOf flagOf Settings.mk readMember :=
    fun _ _ _ => rfl
  rw [ofMembers, show standard = ⟨standard.fileName, standard.withBuiltins⟩ from rfl,
    hReads.foldlM_eq_ok_iff (by decide) hOnce]
  simp only [takes_iff_of_write textOf_eq_ok_iff, takes_iff_of_write flagOf_eq_ok_iff]
  constructor
  · rintro ⟨_, _, ⟨fileName?, hName, rfl⟩, ⟨withBuiltins?, hBuiltins, rfl⟩, rfl⟩
    exact ⟨fileName?, withBuiltins?, hName, hBuiltins, rfl⟩
  · rintro ⟨fileName?, withBuiltins?, hName, hBuiltins, rfl⟩
    exact ⟨_, _, ⟨fileName?, hName, rfl⟩, ⟨withBuiltins?, hBuiltins, rfl⟩, rfl⟩

end Settings

namespace Summary

theorem finish_eq_ok_iff (draft : Draft) (summary : Summary) :
    draft.finish = .ok summary ↔ draft = ⟨some summary.builtinCount, some summary.fileRead⟩ := by
  obtain ⟨count?, fileRead?⟩ := draft
  constructor
  · intro h
    cases count? with
    | none => cases h
    | some count =>
      cases fileRead? with
      | none => cases h
      | some fileRead =>
        obtain rfl := Except.ok.inj h
        rfl
  · intro h
    rw [h]
    rfl

theorem readsFields_readMember :
    ReadsFields builtinCountKey fileReadKey (fun value => (countOf value).map some)
      (fun value => (flagOf value).map some) Draft.mk Draft.readMember := by
  intro count? fileRead? member
  simp only [Draft.readMember, map_some_map]

theorem ofMembers_eq_ok_iff {members : List (String × Value)} (hOnce : KeysOnce members)
    (summary : Summary) :
    ofMembers members = .ok summary ↔
      members.lookup builtinCountKey = some (.integer summary.builtinCount) ∧
        summary.builtinCount < UInt64.size ∧
        members.lookup fileReadKey = some (.flag summary.fileRead) := by
  have hTakes : ofMembers members = .ok summary ↔
      Takes builtinCountKey (fun value => (countOf value).map some) none members
          (some summary.builtinCount) ∧
        Takes fileReadKey (fun value => (flagOf value).map some) none members
          (some summary.fileRead) := by
    rw [ofMembers, bind_eq_ok_iff]
    simp only [finish_eq_ok_iff, exists_eq_right]
    rw [readsFields_readMember.foldlM_eq_ok_iff (by decide) hOnce]
    constructor
    · rintro ⟨_, _, hCount, hRead, hDraft⟩
      obtain ⟨rfl, rfl⟩ := Draft.mk.inj hDraft
      exact ⟨hCount, hRead⟩
    · rintro ⟨hCount, hRead⟩
      exact ⟨_, _, hCount, hRead, rfl⟩
  rw [hTakes, takes_none_iff, takes_none_iff]
  simp only [countOf_eq_ok_iff, flagOf_eq_ok_iff, exists_eq_right]
  constructor
  · rintro ⟨⟨_, hLookup, rfl, hSize⟩, hRead⟩
    exact ⟨hLookup, hSize, hRead⟩
  · rintro ⟨hLookup, hSize, hRead⟩
    exact ⟨⟨_, hLookup, rfl, hSize⟩, hRead⟩

end Summary

/-! ## Reading back -/

theorem Settings.ofValue_toValue (settings : Settings) :
    Settings.ofValue settings.toValue = .ok settings := by
  obtain ⟨members, hValue, hOnce, hLookup⟩ := Json.exists_object_ofMembers
    [(fileNameKey, .string settings.fileName), (withBuiltinsKey, .flag settings.withBuiltins)]
  rw [toValue, hValue, ofValue]
  refine (ofMembers_eq_ok_iff hOnce settings).mpr
    ⟨some settings.fileName, some settings.withBuiltins, ?_, ?_, rfl⟩
  · rw [hLookup]
    rfl
  · rw [hLookup]
    rfl

theorem Summary.ofValue_toValue (summary : Summary) (h : summary.builtinCount < UInt64.size) :
    Summary.ofValue summary.toValue = .ok summary := by
  obtain ⟨members, hValue, hOnce, hLookup⟩ := Json.exists_object_ofMembers
    [(builtinCountKey, .integer summary.builtinCount), (fileReadKey, .flag summary.fileRead)]
  rw [toValue, hValue, ofValue]
  refine (ofMembers_eq_ok_iff hOnce summary).mpr ⟨?_, h, ?_⟩
  · rw [hLookup]
    rfl
  · rw [hLookup]
    rfl

/-- Settings and summaries are read back from their values. Of an object, settings take exactly the
members that they know, over the standard settings, as the setters would; a summary is read from
the objects that hold both its members. -/
theorem exchange_reads_members :
    (∀ settings : Settings, Settings.ofValue settings.toValue = .ok settings) ∧
    (∀ summary : Summary, summary.builtinCount < UInt64.size →
      Summary.ofValue summary.toValue = .ok summary) ∧
    ∀ members, KeysOnce members →
      (∀ fileName? withBuiltins?,
        members.lookup Settings.fileNameKey = fileName?.map .string →
        members.lookup Settings.withBuiltinsKey = withBuiltins?.map .flag →
        Settings.ofValue (.object members) =
            .ok (Settings.standard.overlay fileName? withBuiltins?) ∧
          Settings.standard.overlay fileName? withBuiltins? =
            withBuiltins?.toList.foldl Settings.setWithBuiltins
              (fileName?.toList.foldl Settings.setFileName .standard)) ∧
      ∀ summary, Summary.ofValue (.object members) = .ok summary ↔
        members.lookup Summary.builtinCountKey = some (.integer summary.builtinCount) ∧
          summary.builtinCount < UInt64.size ∧
          members.lookup Summary.fileReadKey = some (.flag summary.fileRead) := by
  refine ⟨Settings.ofValue_toValue, Summary.ofValue_toValue, ?_⟩
  intro members hOnce
  refine ⟨?_, Summary.ofMembers_eq_ok_iff hOnce⟩
  intro fileName? withBuiltins? hName hBuiltins
  exact ⟨(Settings.ofMembers_eq_ok_iff hOnce _).mpr
    ⟨fileName?, withBuiltins?, hName, hBuiltins, rfl⟩, Settings.overlay_eq_setters _ _ _⟩

theorem exchange_reads_members_mixed : ∃ members : List (String × Value),
    members = [("custom_patterns_loaded", .flag true),
      ("default_patterns_count", .integer 18446744073709551615), ("extra", .null),
      ("include_defaults", .flag false)] ∧
    KeysOnce members ∧
    Settings.ofValue (.object members) = .ok ⟨".syncignore", false⟩ ∧
    Summary.ofValue (.object members) = .ok ⟨18446744073709551615, true⟩ ∧
    Summary.ofValue (Summary.toValue ⟨18446744073709551615, true⟩) =
      .ok ⟨18446744073709551615, true⟩ := by
  obtain ⟨_, hBack, hMembers⟩ := exchange_reads_members
  have hOnce : KeysOnce [("custom_patterns_loaded", .flag true),
      ("default_patterns_count", .integer 18446744073709551615), ("extra", .null),
      ("include_defaults", .flag false)] := by decide
  obtain ⟨hSettings, hSummary⟩ := hMembers _ hOnce
  refine ⟨_, rfl, hOnce, (hSettings none (some false) rfl rfl).1, ?_, hBack _ (by decide)⟩
  exact (hSummary ⟨18446744073709551615, true⟩).mpr ⟨rfl, by decide, rfl⟩

end PathSieve
