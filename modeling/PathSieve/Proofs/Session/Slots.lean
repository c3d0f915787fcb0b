import PathSieve.Proofs.Sieve.Keeping
import PathSieve.Session

/-!
# What a session keeps

Sieves do not change once they are made. So the sieve of a slot is the one that was stored there
last, whatever happens to the files, the settings and the other slots meanwhile
(`withSlot_run_of_stored`, `slot?_run_of_shared`), and steps that report no change have made none
(`run_eq_self`). All of this is read off `effect_step`, which says once what a step can do.
-/

namespace PathSieve

set_option autoImplicit false

namespace Session

/-- The slot that a step is to fill or to empty. -/
def Step.target? : Step → Option String
  | .build slot _ | .buildCurrent slot _ | .load slot _ | .drop slot => some slot
  | .share _ target => some target
  | _ => none

def Reply.reportsChange : Reply → Bool
  | .done | .settings _ | .stored _ | .shared | .count _ | .kept _ => true
  | .dropped existed => existed
  | .absent | .loadFailed _ | .verdict _ | .ignored _ | .summary _ | .noSuchSlot => false

variable {session : Session} {step : Step} {steps : List Step} {slot : String}

/-! ## Slots -/

theorem slot?_without (session : Session) (slot other : String) :
    (session.without slot).slot? other = if other = slot then none else session.slot? other := by
  obtain ⟨tree, root, settings, slots, paths⟩ := session
  change (slots.filter fun entry => entry.1 != slot).lookup other = _
  induction slots with
  | nil => exact (ite_self none).symm
  | cons entry slots ih =>
    obtain ⟨name, sieve⟩ := entry
    rcases eq_or_ne name slot with rfl | hKept
    · rw [List.filter_cons_of_neg (by simp), ih]
      split
      · rfl
      · next hOther => simp [slot?, List.lookup_cons, beq_eq_false_iff_ne.mpr hOther]
    · rw [List.filter_cons_of_pos (by simpa using hKept), List.lookup_cons, ih]
      rcases eq_or_ne other name with rfl | hOther
      · simp [slot?, hKept]
      · simp [slot?, List.lookup_cons, beq_eq_false_iff_ne.mpr hOther]

theorem slot?_store (session : Session) (slot other : String) (sieve : Sieve) :
    (session.store slot sieve).slot? other =
      if other = slot then some sieve else session.slot? other := by
  have hWithout := session.slot?_without slot other
  rcases eq_or_ne other slot with rfl | hOther
  · simp [slot?, store]
  · rw [if_neg hOther] at hWithout ⊢
    rw [← hWithout]
    simp [slot?, store, List.lookup_cons, beq_eq_false_iff_ne.mpr hOther]

theorem without_eq_self (h : session.slot? slot = none) : session.without slot = session := by
  rw [slot?, List.lookup_eq_none_iff] at h
  rw [without, List.filter_eq_self.mpr]
  intro entry hEntry
  rw [bne_comm]
  exact h entry hEntry

theorem withSlot_of_slot? {sieve : Sieve} (h : session.slot? slot = some sieve)
    (answer : Sieve → Session × Reply) : session.withSlot slot answer = answer sieve := by
  rw [withSlot, h]

/-- No name stands for two slots. -/
def HasDistinctSlots (session : Session) : Prop := (session.slots.map Prod.fst).Nodup

theorem hasDistinctSlots_start (tree : FileTree) (root : String) :
    (start tree root).HasDistinctSlots := List.nodup_nil

theorem HasDistinctSlots.without (h : session.HasDistinctSlots) (slot : String) :
    (session.without slot).HasDistinctSlots :=
  h.sublist (List.filter_sublist.map Prod.fst)

theorem HasDistinctSlots.store (h : session.HasDistinctSlots) (slot : String) (sieve : Sieve) :
    (session.store slot sieve).HasDistinctSlots := by
  apply List.nodup_cons.mpr
  refine ⟨?_, h.without slot⟩
  intro hMem
  obtain ⟨entry, hEntry, hName⟩ := List.mem_map.mp hMem
  have hKept := (List.mem_filter.mp hEntry).2
  exact bne_iff_ne.mp hKept hName

theorem HasDistinctSlots.slot?_eq_some_iff (h : session.HasDistinctSlots) (slot : String)
    (sieve : Sieve) : session.slot? slot = some sieve ↔ (slot, sieve) ∈ session.slots := by
  rw [slot?, List.lookup_eq_some_iff]
  constructor
  · rintro ⟨front, back, hSlots, -⟩
    rw [hSlots]
    exact List.mem_append_right front List.mem_cons_self
  · intro hMem
    obtain ⟨front, back, hSlots⟩ := List.append_of_mem hMem
    refine ⟨front, back, hSlots, ?_⟩
    intro entry hEntry
    rw [HasDistinctSlots, hSlots, List.map_append, List.nodup_append] at h
    have hName := h.2.2 entry.1 (List.mem_map_of_mem hEntry) slot List.mem_cons_self
    exact bne_iff_ne.mpr hName.symm

/-! ## One step -/

/-- What a step can make of a session, with its reply. -/
inductive Effect (session : Session) (step : Step) : Session × Reply → Prop
  | unchanged (reply : Reply) (hReply : reply.reportsChange = false) :
      Effect session step (session, reply)
  | workspace (tree : FileTree) : Effect session step ({ session with tree }, .done)
  | configured (settings : Settings) :
      Effect session step ({ session with settings }, .settings settings)
  | dropped (slot : String) (hTarget : step.target? = some slot) :
      Effect session step (session.without slot, .dropped (session.slot? slot).isSome)
  | stored (slot : String) (hTarget : step.target? = some slot) (sieve : Sieve) :
      Effect session step (session.store slot sieve, .stored sieve)
  | shared (slot target : String) (hStep : step = .share slot target) (sieve : Sieve)
      (hSlot : session.slot? slot = some sieve) :
      Effect session step (session.store target sieve, .shared)
  | chosen (paths : List String) (hStep : step = .choose paths) :
      Effect session step ({ session with paths }, .count paths.length)
  | narrowed (slot : String) (hStep : step = .narrow slot) (sieve : Sieve)
      (hSlot : session.slot? slot = some sieve) :
      Effect session step ({ session with paths := (sieve.keep session.paths).value },
        .kept (sieve.keep session.paths).value)

theorem effect_withSlot {answer : Sieve → Session × Reply}
    (h : ∀ sieve, session.slot? slot = some sieve → Effect session step (answer sieve)) :
    Effect session step (session.withSlot slot answer) := by
  rw [withSlot]
  split
  · next sieve hSlot => exact h sieve hSlot
  · exact .unchanged .noSuchSlot rfl

theorem effect_step (session : Session) (step : Step) :
    Effect session step (session.step step) := by
  cases step with
  | write path bytes => exact .workspace _
  | makeDirectory path => exact .workspace _
  | remove path =>
    rw [Session.step]
    split
    · exact .workspace _
    · exact .unchanged .absent rfl
  | configure reset fileName? withBuiltins? => exact .configured _
  | build slot source => exact .stored slot rfl _
  | buildCurrent slot lines => exact .stored slot rfl _
  | load slot below =>
    rw [Session.step]
    split
    · exact .stored slot rfl _
    · next error _ => exact .unchanged (.loadFailed error) rfl
  | share slot target =>
    exact effect_withSlot fun sieve hSlot => .shared slot target rfl sieve hSlot
  | drop slot => exact .dropped slot rfl
  | explain slot path => exact effect_withSlot fun _ _ => .unchanged (.verdict _) rfl
  | asks slot path => exact effect_withSlot fun _ _ => .unchanged (.ignored _) rfl
  | summarize slot => exact effect_withSlot fun _ _ => .unchanged (.summary _) rfl
  | choose paths => exact .chosen paths rfl
  | narrow slot => exact effect_withSlot fun sieve hSlot => .narrowed slot rfl sieve hSlot

theorem slot?_step (h : step.target? ≠ some slot) :
    (session.step step).1.slot? slot = session.slot? slot := by
  have hStep := session.effect_step step
  generalize session.step step = next at hStep ⊢
  cases hStep with
  | unchanged | workspace | configured | chosen | narrowed => rfl
  | dropped other hTarget =>
    rw [slot?_without, if_neg]
    rintro rfl
    exact h hTarget
  | stored other hTarget sieve =>
    rw [slot?_store, if_neg]
    rintro rfl
    exact h hTarget
  | shared source other hShare sieve hSlot =>
    rw [slot?_store, if_neg]
    rintro rfl
    exact h (hShare ▸ rfl)

theorem slot?_of_stored {sieve : Sieve} (hReply : (session.step step).2 = .stored sieve)
    (hTarget : step.target? = some slot) : (session.step step).1.slot? slot = some sieve := by
  have hStep := session.effect_step step
  generalize session.step step = next at hStep hReply ⊢
  cases hStep with
  | unchanged reply hSilent =>
    rw [show reply = .stored sieve from hReply] at hSilent
    cases hSilent
  | stored other hOther =>
    cases hReply
    rw [hTarget, Option.some.injEq] at hOther
    rw [hOther, slot?_store, if_pos rfl]
  | workspace | configured | dropped | shared | chosen | narrowed => cases hReply

theorem slot?_of_shared {target : String}
    (hReply : (session.step (.share slot target)).2 = .shared) :
    (session.step (.share slot target)).1.slot? target = session.slot? slot := by
  cases hSlot : session.slot? slot with
  | none => simp [Session.step, withSlot, hSlot] at hReply
  | some sieve => rw [Session.step, withSlot_of_slot? hSlot, slot?_store, if_pos rfl]

theorem step_eq_self (h : (session.step step).2.reportsChange = false) :
    (session.step step).1 = session := by
  have hStep := session.effect_step step
  generalize session.step step = next at hStep h ⊢
  cases hStep with
  | unchanged => rfl
  | dropped slot =>
    have hAbsent : ¬ (session.slot? slot).isSome = true := Bool.eq_false_iff.mp h
    exact without_eq_self (Option.not_isSome_iff_eq_none.mp hAbsent)
  | workspace | configured | stored | shared | chosen | narrowed => cases h

theorem HasDistinctSlots.after (h : session.HasDistinctSlots) (step : Step) :
    (session.step step).1.HasDistinctSlots := by
  have hStep := session.effect_step step
  generalize session.step step = next at hStep ⊢
  cases hStep with
  | unchanged | workspace | configured | chosen | narrowed => exact h
  | dropped slot => exact h.without slot
  | stored slot _ sieve => exact h.store slot sieve
  | shared _ target _ sieve => exact h.store target sieve

theorem paths_step (h : ∀ paths, step ≠ .choose paths) :
    (session.step step).1.paths.Sublist session.paths := by
  have hStep := session.effect_step step
  generalize session.step step = next at hStep ⊢
  cases hStep with
  | unchanged | workspace | configured | dropped | stored | shared => exact .refl _
  | chosen paths hChoose => exact absurd hChoose (h paths)
  | narrowed slot _ sieve =>
    change ((sieve.keep session.paths).value).Sublist session.paths
    rw [Sieve.keep_value]
    exact List.filter_sublist

/-! ## A run -/

theorem run_preserves {motive : Session → Prop}
    (hStep : ∀ step ∈ steps, ∀ session, motive session → motive (session.step step).1)
    (h : motive session) : motive (session.run steps).1 := by
  induction steps generalizing session with
  | nil => exact h
  | cons step steps ih =>
    apply ih
    · intro later hLater
      exact hStep later (List.mem_cons_of_mem step hLater)
    · exact hStep step List.mem_cons_self session h

/-- The sieve of a slot stays until a step fills or empties this slot. -/
theorem slot?_run (h : ∀ step ∈ steps, step.target? ≠ some slot) :
    (session.run steps).1.slot? slot = session.slot? slot := by
  apply run_preserves (motive := fun later => later.slot? slot = session.slot? slot)
  · intro step hMem later hLater
    exact (slot?_step (h step hMem)).trans hLater
  · rfl

/-- Every step that reads a slot reads the sieve that was stored there last. -/
theorem withSlot_run_of_stored {sieve : Sieve} (hReply : (session.step step).2 = .stored sieve)
    (hTarget : step.target? = some slot) (hLater : ∀ later ∈ steps, later.target? ≠ some slot)
    (answer : Sieve → Session × Reply) :
    ((session.step step).1.run steps).1.withSlot slot answer = answer sieve := by
  apply withSlot_of_slot?
  rw [slot?_run hLater]
  exact slot?_of_stored hReply hTarget

/-- A slot that shares the sieve of another one keeps it when the other is emptied or filled
anew. -/
theorem slot?_run_of_shared {target : String}
    (hReply : (session.step (.share slot target)).2 = .shared)
    (hLater : ∀ later ∈ steps, later.target? ≠ some target) :
    ((session.step (.share slot target)).1.run steps).1.slot? target = session.slot? slot := by
  rw [slot?_run hLater]
  exact slot?_of_shared hReply

theorem run_eq_self (h : ∀ reply ∈ (session.run steps).2, reply.reportsChange = false) :
    (session.run steps).1 = session := by
  induction steps generalizing session with
  | nil => rfl
  | cons step steps ih =>
    have hStep : (session.step step).1 = session := step_eq_self (h _ List.mem_cons_self)
    have hRest : ((session.step step).1.run steps).1 = (session.step step).1 := by
      apply ih
      intro reply hReply
      exact h reply (List.mem_cons_of_mem _ hReply)
    exact hRest.trans hStep

/-- The list of the slots holds no sieve that is not found under its name. -/
theorem mem_slots_run_iff (tree : FileTree) (root : String) (steps : List Step) (slot : String)
    (sieve : Sieve) : (slot, sieve) ∈ ((start tree root).run steps).1.slots ↔
      ((start tree root).run steps).1.slot? slot = some sieve := by
  have hDistinct : ((start tree root).run steps).1.HasDistinctSlots :=
    run_preserves (fun step _ _ h => h.after step) (hasDistinctSlots_start tree root)
  exact (hDistinct.slot?_eq_some_iff slot sieve).symm

/-- Paths only get fewer until others are chosen. -/
theorem paths_run (h : ∀ step ∈ steps, ∀ paths, step ≠ .choose paths) :
    (session.run steps).1.paths.Sublist session.paths := by
  apply run_preserves (motive := fun later => later.paths.Sublist session.paths)
  · intro step hMem later hLater
    exact (paths_step (h step hMem)).trans hLater
  · exact .refl _

end Session

end PathSieve
