import AccountGate.Auth.Vault

/-!
The registry as a list of records. Main statement: no operation makes up a strategy; what is found,
removed or left was put there before; only calls for that change what is there; and after an
enrolment the first record that serves an address is the one that did, if there was one.
-/

namespace AccountGate.Auth

namespace Registry

theorem mem_of_mem_put {record r : Record} {registry : Registry} (h : r ∈ put record registry) :
    r = record ∨ r ∈ registry := by
  induction registry with
  | nil => exact .inl (List.mem_singleton.mp h)
  | cons first rest ih =>
    rw [put] at h
    split at h
    · rcases List.mem_cons.mp h with rfl | hr
      · exact .inl rfl
      · exact .inr (List.mem_cons_of_mem first hr)
    · rcases List.mem_cons.mp h with rfl | hr
      · exact .inr List.mem_cons_self
      · rcases ih hr with hrec | hrest
        · exact .inl hrec
        · exact .inr (List.mem_cons_of_mem first hrest)

theorem mem_of_mem_enrol {starts : List String} {handle : Handle} {r : Record}
    {registry : Registry} (h : r ∈ enrol starts handle registry) :
    r.handle = handle ∨ r ∈ registry := by
  induction starts generalizing registry with
  | nil => exact .inr h
  | cons start rest ih =>
    rcases ih h with hhandle | hput
    · exact .inl hhandle
    · rcases mem_of_mem_put hput with rfl | hr
      · exact .inl rfl
      · exact .inr hr

theorem mem_of_find? {url : String} {registry : Registry} {handle : Handle}
    (h : handle ∈ find? url registry) : ∃ r ∈ registry, r.handle = handle := by
  unfold find? at h
  split at h
  · obtain ⟨r, hr, rfl⟩ := Option.map_eq_some_iff.mp h
    exact ⟨r, List.mem_of_head? hr, rfl⟩
  · obtain ⟨r, hr, rfl⟩ := Option.map_eq_some_iff.mp h
    exact ⟨r, List.mem_of_find?_eq_some hr, rfl⟩

theorem mem_of_remove (start : String) (registry : Registry) :
    (∀ handle ∈ (remove start registry).1, ∃ r ∈ registry, r.handle = handle) ∧
      ∀ r ∈ (remove start registry).2, r ∈ registry := by
  induction registry with
  | nil => simp [remove]
  | cons first rest ih =>
    rw [remove]
    split
    · refine ⟨fun handle h => ?_, fun r hr => List.mem_cons_of_mem first hr⟩
      obtain rfl := Option.some.inj h
      exact ⟨first, List.mem_cons_self, rfl⟩
    · refine ⟨fun handle h => ?_, fun r hr => ?_⟩
      · obtain ⟨r, hr, hhandle⟩ := ih.1 handle h
        exact ⟨r, List.mem_cons_of_mem first hr, hhandle⟩
      · rcases List.mem_cons.mp hr with rfl | hrest
        · exact List.mem_cons_self
        · exact List.mem_cons_of_mem first (ih.2 r hrest)

theorem mem_starts_enrol {given : List String} {start : String} (handle : Handle)
    (registry : Registry) (h : start ∈ given ∨ start ∈ starts registry) :
    start ∈ starts (enrol given handle registry) := by
  induction given generalizing registry with
  | nil => exact h.resolve_left List.not_mem_nil
  | cons first rest ih =>
    refine ih _ ?_
    rw [starts_put]
    rcases h with h | h
    · rcases List.mem_cons.mp h with rfl | hrest
      · right
        split
        · assumption
        · simp
      · exact .inl hrest
    · right
      split
      · exact h
      · exact List.mem_append_left _ h

/-- An address that something was registered for is served. -/
theorem isSome_find? {start : String} {registry : Registry} (h : start ∈ starts registry) :
    (find? start registry).isSome = true := by
  obtain ⟨r, hr, hstart⟩ := List.mem_map.mp h
  rw [find?]
  split
  · rw [Option.isSome_map, List.isSome_head?]
    exact List.ne_nil_of_mem hr
  · rw [Option.isSome_map, List.find?_isSome]
    exact ⟨r, hr, by simp [hstart]⟩

section First

variable {url : String} {given : List String} {handle : Handle} {registry : Registry}

/-- A record with this start serves the address. -/
def serves (url start : String) : Bool := url = anyUrl || start.toList.isPrefixOf url.toList

/-- The first record that serves an address. -/
def first? (url : String) (registry : Registry) : Option Record :=
  List.find? (fun r => serves url r.start) registry

theorem find?_eq_first? (url : String) (registry : Registry) :
    find? url registry = (first? url registry).map Record.handle := by
  by_cases hany : url = anyUrl
  · rw [find?, if_pos hany]
    cases registry with
    | nil => rfl
    | cons r rest => simp [first?, serves, hany]
  · simp [find?, first?, serves, hany]

theorem serves_self (url : String) : serves url url = true := by
  simp [serves, List.isPrefixOf_iff_prefix]

/-- A record that is put comes in the place of the one with its start, and behind all others. -/
theorem first?_put (url : String) (record : Record) (registry : Registry) :
    first? url (put record registry) =
      match first? url registry with
      | some r => some (if r.start = record.start then record else r)
      | none => if serves url record.start then some record else none := by
  induction registry with
  | nil => cases h : serves url record.start <;> simp [put, first?, h]
  | cons r rest ih =>
    rw [put]
    by_cases heq : r.start = record.start
    · rw [if_pos heq]
      cases hserves : serves url record.start with
      | true => simp [first?, hserves, heq]
      | false =>
        -- Then no record with this start is the first one.
        have hother {r' : Record} (h : List.find? (fun r => serves url r.start) rest = some r') :
            r'.start ≠ record.start := by
          intro hsame
          have hr' := List.find?_some h
          rw [hsame, hserves] at hr'
          exact absurd hr' (by simp)
        simp only [first?, List.find?_cons, hserves, heq]
        cases hfirst : List.find? (fun r => serves url r.start) rest with
        | none => simp
        | some r' => simp [hother hfirst]
    · rw [if_neg heq]
      cases hserves : serves url r.start with
      | true => simp [first?, hserves, heq]
      | false =>
        simp only [first?, List.find?_cons, hserves] at ih ⊢
        exact ih

/-- After an enrolment an address is served as before, unless by one of the given starts. -/
theorem find?_enrol (url : String) (given : List String) (handle : Handle) (registry : Registry) :
    find? url (enrol given handle registry) =
      match first? url registry with
      | some r => some (if r.start ∈ given then handle else r.handle)
      | none => if ∃ start ∈ given, serves url start = true then some handle else none := by
  rw [find?_eq_first?]
  induction given generalizing registry with
  | nil => cases hfirst : first? url registry with
    | none => simp [enrol, hfirst]
    | some r => simp [enrol, hfirst]
  | cons start rest ih =>
    show (first? url (enrol rest handle (put ⟨start, handle⟩ registry))).map Record.handle = _
    rw [ih, first?_put]
    cases first? url registry with
    | some r =>
      by_cases heq : r.start = start
      · simp [heq]
      · simp [heq]
    | none =>
      cases hserves : serves url start with
      | true => simp [hserves]
      | false => simp [hserves]

end First

end Registry

/-- The vault replies to a call, or the outside does. -/
def Vault.Replies (v : Vault) (c : Call) (r : Reply c) (v' : Vault) : Prop :=
  v.step c = .reply r v' ∨ v.step c = .outside ∧ v' = v

/-- It leaves the registry as it is. -/
def Call.IsOutward : Call → Prop
  | .create _ => False
  | .enrol _ _ => False
  | .remove _ => False
  | _ => True

theorem Vault.Replies.registry_eq {v v' : Vault} {c : Call} {r : Reply c} (h : v.Replies c r v')
    (hc : c.IsOutward) : v'.registry = v.registry := by
  rcases h with h | ⟨-, rfl⟩
  · cases c with
    | create strategy => exact hc.elim
    | enrol starts handle => exact hc.elim
    | remove start => exact hc.elim
    | acquire id =>
      rw [step] at h
      split at h
      · exact absurd h (by simp)
      · obtain ⟨-, rfl⟩ := Outcome.reply.inj h
        rfl
    | clock => exact absurd h (by simp [step])
    | send _ => exact absurd h (by simp [step])
    | count _ => exact absurd h (by simp [step])
    | _ =>
      obtain ⟨-, rfl⟩ := Outcome.reply.inj h
      rfl
  · rfl

end AccountGate.Auth
