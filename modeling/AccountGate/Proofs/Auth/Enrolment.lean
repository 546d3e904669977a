import AccountGate.Proofs.Auth.Asking

/-!
Registrations and removals in a row. Main statement: whatever they were, the registry is a map from
starts to strategies that keeps the order in which the starts came, and finds for an address the
strategy of the first start that it has.
-/

namespace AccountGate.Auth

open Program AccountGate.Flow

namespace Registry

variable {given : List String} {start : String} {handle : Handle} {registry : Registry}

/-- The strategy under exactly this start. -/
def handle? (start : String) (registry : Registry) : Option Handle :=
  (List.find? (fun r => r.start = start) registry).map Record.handle

/-- The starts that have no record yet, each once, in the order in which they first come. -/
def fresh (given : List String) (registry : Registry) : List String :=
  (given.filter fun start => start ∉ starts registry).eraseDups

/-- A record as it is when a strategy has been put in charge of some starts. -/
def reassigned (given : List String) (handle : Handle) (r : Record) : Record :=
  if r.start ∈ given then ⟨r.start, handle⟩ else r

/-- One strategy in charge of some starts: in the place of the records that have them, and at the
end for those that have none. -/
def enrolled (given : List String) (handle : Handle) (registry : Registry) : Registry :=
  registry.map (reassigned given handle) ++ (fresh given registry).map fun start => ⟨start, handle⟩

theorem start_reassigned (given : List String) (handle : Handle) (r : Record) :
    (reassigned given handle r).start = r.start := by
  rw [reassigned]
  split <;> rfl

theorem starts_map_reassigned (given : List String) (handle : Handle) (registry : Registry) :
    starts (registry.map (reassigned given handle)) = starts registry := by
  rw [starts, starts, List.map_map]
  exact List.map_congr_left fun r _ => start_reassigned given handle r

theorem reassigned_cons_of_ne {r : Record} (h : r.start ≠ start) :
    reassigned (start :: given) handle r = reassigned given handle r := by
  simp [reassigned, h]

theorem reassigned_reassigned (start : String) (given : List String) (handle : Handle)
    (r : Record) :
    reassigned given handle (reassigned [start] handle r) =
      reassigned (start :: given) handle r := by
  by_cases h : r.start = start
  · simp [reassigned, h]
  · simp [reassigned, h]

theorem put_of_notMem {record : Record} (h : record.start ∉ starts registry) :
    put record registry = registry ++ [record] := by
  induction registry with
  | nil => rfl
  | cons r rest ih =>
    obtain ⟨hr, hrest⟩ := not_or.mp (mt List.mem_cons.mpr h)
    rw [put, if_neg (Ne.symm hr), ih hrest]
    rfl

theorem put_of_mem (hnodup : (starts registry).Nodup) (h : start ∈ starts registry) :
    put ⟨start, handle⟩ registry = registry.map (reassigned [start] handle) := by
  induction registry with
  | nil => exact absurd h List.not_mem_nil
  | cons r rest ih =>
    obtain ⟨hr, hrest⟩ := List.nodup_cons.mp hnodup
    rw [put, List.map_cons]
    by_cases heq : r.start = start
    · -- No later record has this start.
      have hkept : rest.map (reassigned [start] handle) = rest := by
        refine (List.map_congr_left fun other hother => if_neg ?_).trans (List.map_id rest)
        rw [List.mem_singleton, ← heq]
        exact fun hsame => hr (hsame ▸ List.mem_map_of_mem hother)
      rw [if_pos heq, hkept]
      simp [reassigned, heq]
    · have hmem : start ∈ starts rest := (List.mem_cons.mp h).resolve_left (Ne.symm heq)
      rw [if_neg heq, ih hrest hmem, reassigned_cons_of_ne heq]
      simp [reassigned]

theorem fresh_cons_of_mem (h : start ∈ starts registry) :
    fresh (start :: given) registry = fresh given registry := by
  rw [fresh, List.filter_cons_of_neg (by simpa using h), fresh]

theorem fresh_cons_of_notMem (h : start ∉ starts registry) (handle : Handle) :
    fresh (start :: given) registry = start :: fresh given (registry ++ [⟨start, handle⟩]) := by
  rw [fresh, List.filter_cons_of_pos (by simpa using h), List.eraseDups_cons, fresh,
    List.filter_filter]
  congr 2
  refine List.filter_congr fun other _ => ?_
  rw [starts, starts, List.map_append]
  by_cases hother : other = start
  · simp [hother]
  · simp [hother]

/-- Registering one start after another comes to that. -/
theorem enrol_eq (h : (starts registry).Nodup) :
    enrol given handle registry = enrolled given handle registry := by
  induction given generalizing registry with
  | nil =>
    have hkept : reassigned [] handle = id := by
      funext r
      simp [reassigned]
    simp [enrol, enrolled, fresh, hkept]
  | cons start rest ih =>
    show enrol rest handle (put ⟨start, handle⟩ registry) = _
    rw [ih (nodup_starts_put _ h), enrolled, enrolled]
    by_cases hmem : start ∈ starts registry
    · have hfresh : fresh rest (registry.map (reassigned [start] handle)) =
          fresh rest registry := by
        rw [fresh, fresh, starts_map_reassigned]
      rw [put_of_mem h hmem, hfresh, fresh_cons_of_mem hmem, List.map_map]
      congr 1
      exact List.map_congr_left fun r _ => reassigned_reassigned start rest handle r
    · have hkept : registry.map (reassigned (start :: rest) handle) =
          registry.map (reassigned rest handle) := by
        refine List.map_congr_left fun r hr => reassigned_cons_of_ne ?_
        rintro rfl
        exact hmem (List.mem_map_of_mem hr)
      have hnew : reassigned rest handle ⟨start, handle⟩ = ⟨start, handle⟩ := by
        simp [reassigned]
      rw [put_of_notMem hmem, fresh_cons_of_notMem hmem handle, hkept, List.map_append,
        List.map_singleton, hnew, List.append_assoc]
      rfl

theorem mem_fresh : start ∈ fresh given registry ↔ start ∈ given ∧ start ∉ starts registry := by
  simp [fresh, List.mem_eraseDups]

theorem handle?_eq_none_iff : handle? start registry = none ↔ start ∉ starts registry := by
  simp [handle?, starts]

theorem isSome_handle? (start : String) (registry : Registry) :
    (handle? start registry).isSome = decide (start ∈ starts registry) := by
  rw [Bool.eq_iff_iff]
  simp [handle?, starts]

theorem handle?_map_handle (starts : List String) (handle : Handle) (start : String) :
    handle? start (starts.map fun start => ⟨start, handle⟩) =
      if start ∈ starts then some handle else none := by
  induction starts with
  | nil => rfl
  | cons first rest ih =>
    rw [handle?] at ih ⊢
    by_cases heq : first = start
    · simp [heq]
    · rw [List.map_cons, List.find?_cons_of_neg (by simpa using heq), ih]
      simp [Ne.symm heq]

theorem mem_starts_enrolled : start ∈ starts (enrolled given handle registry) ↔
    start ∈ starts registry ∨ start ∈ given := by
  have hnew : starts ((fresh given registry).map fun start => ⟨start, handle⟩) =
      fresh given registry := by
    rw [starts, List.map_map]
    exact List.map_id _
  have hmem : start ∈ starts (enrolled given handle registry) ↔
      start ∈ starts registry ∨ start ∈ fresh given registry := by
    rw [← starts_map_reassigned given handle registry, ← hnew, ← List.mem_append, starts, starts,
      starts, ← List.map_append]
    rfl
  rw [hmem, mem_fresh]
  tauto

/-- Each start leads to the strategy that was put in charge of it, and all others lead to theirs. -/
theorem handle?_enrolled (given : List String) (handle : Handle) (registry : Registry)
    (start : String) : handle? start (enrolled given handle registry) =
      if start ∈ given then some handle else handle? start registry := by
  have hold : handle? start (registry.map (reassigned given handle)) =
      (handle? start registry).map fun old => if start ∈ given then handle else old := by
    have hsame : ((fun r : Record => decide (r.start = start)) ∘ reassigned given handle) =
        fun r => decide (r.start = start) := funext fun r => by simp [start_reassigned]
    rw [handle?, handle?, List.find?_map, hsame, Option.map_map, Option.map_map]
    refine Option.map_congr fun r hr => ?_
    have hstart : r.start = start := by simpa using List.find?_some hr
    simp only [Function.comp_apply, reassigned, hstart]
    split <;> rfl
  have happend (front back : Registry) :
      handle? start (front ++ back) = (handle? start front).or (handle? start back) := by
    rw [handle?, List.find?_append, Option.map_or, handle?, handle?]
  rw [enrolled, happend, hold, handle?_map_handle]
  cases hfound : handle? start registry with
  | none =>
    have hnone := handle?_eq_none_iff.mp hfound
    simp [mem_fresh, hnone]
  | some old => by_cases hgiven : start ∈ given <;> simp [hgiven]

theorem remove_eq (h : (starts registry).Nodup) (start : String) : remove start registry =
    (handle? start registry, registry.filter fun r => r.start ≠ start) := by
  induction registry with
  | nil => rfl
  | cons r rest ih =>
    obtain ⟨hr, hrest⟩ := List.nodup_cons.mp h
    rw [remove]
    by_cases heq : r.start = start
    · have hkept : rest.filter (fun r => r.start ≠ start) = rest := by
        refine List.filter_eq_self.mpr fun other hother => ?_
        simp only [ne_eq, decide_eq_true_eq]
        exact fun hsame => hr (by rw [heq, ← hsame]; exact List.mem_map_of_mem hother)
      rw [if_pos heq, List.filter_cons_of_neg (by simpa using heq), hkept]
      simp [handle?, heq]
    · rw [if_neg heq, ih hrest, List.filter_cons_of_pos (by simpa using heq)]
      simp [handle?, heq]

/-- Found is the strategy of the first record whose start the address has. -/
theorem find?_eq_some_iff {url : String} (h : url ≠ anyUrl) : find? url registry = some handle ↔
    ∃ front r back, registry = front ++ r :: back ∧ r.handle = handle ∧
      url.startsWith r.start = true ∧ ∀ other ∈ front, url.startsWith other.start = false := by
  have hprefix (r : Record) : r.start.toList.isPrefixOf url.toList = url.startsWith r.start := by
    rw [Bool.eq_iff_iff, List.isPrefixOf_iff_prefix, String.startsWith_string_iff]
  simp only [find?, if_neg h, hprefix, Option.map_eq_some_iff, List.find?_eq_some_iff_append,
    Bool.not_eq_true']
  constructor
  · rintro ⟨r, ⟨hr, front, back, heq, hfront⟩, hhandle⟩
    exact ⟨front, r, back, heq, hhandle, hr, hfront⟩
  · rintro ⟨front, r, back, heq, hhandle, hr, hfront⟩
    exact ⟨r, ⟨hr, front, back, heq, hfront⟩, hhandle⟩

theorem find?_anyUrl (registry : Registry) :
    find? anyUrl registry = registry.head?.map Record.handle := if_pos rfl

theorem fault?_eq (given : List String) : fault? given =
    if given = [] then some .noPrefix else if "" ∈ given then some .emptyPrefix else none := by
  have hempty : given.any String.isEmpty = decide ("" ∈ given) := by
    rw [Bool.eq_iff_iff, List.any_eq_true, decide_eq_true_eq]
    constructor
    · rintro ⟨start, hmem, hblank⟩
      exact String.isEmpty_iff.mp hblank ▸ hmem
    · exact fun hmem => ⟨"", hmem, rfl⟩
  rw [fault?, hempty]
  simp only [List.isEmpty_iff, decide_eq_true_eq]

end Registry

/-- What registering a strategy comes to: a refusal that changes nothing, or one new strategy in
charge of all the starts. -/
def Registers (v : Vault) (given : List String) (strategy : Strategy)
    (result : Except Error Handle) (v' : Vault) : Prop :=
  if given = [] then result = .error .noPrefix ∧ v' = v
  else if "" ∈ given then result = .error .emptyPrefix ∧ v' = v
  else ∃ handle made, v.create strategy = (handle, made) ∧ result = .ok handle ∧
    v' = { made with registry := v.registry.enrolled given handle }

/-- The request that goes with a removal: only for a session, and only with a logout address. -/
def revocation? (v : Vault) (start : String) (logoutUrl : Option String) : Option Outgoing :=
  match logoutUrl, v.registry.handle? start with
  | some url, some (.bearer id clientId _) =>
    some (revokeRequest url clientId (v.tokensOf id).refresh.value)
  | _, _ => none

/-- What a removal comes to, whatever the reply to its request is. -/
def Unregisters (v : Vault) (start : String) (logoutUrl : Option String)
    (log : List (Exchange interface)) (removed : Bool) (v' : Vault) : Prop :=
  removed = decide (start ∈ v.registry.starts) ∧
  v' = { v with registry := v.registry.filter fun r => r.start ≠ start } ∧
  log.map Exchange.call = ((revocation? v start logoutUrl).map Call.send).toList

/-- What every registration and removal keeps. -/
structure Tidy (v : Vault) : Prop where
  nodup : v.registry.starts.Nodup
  filled : "" ∉ v.registry.starts
  free : v.held = []
  older : ∀ r ∈ v.registry, r.handle.id < v.created

section Steps

variable {v v' : Vault} {given : List String} {strategy : Strategy} {start : String}
  {logoutUrl : Option String} {log : List (Exchange interface)} {removed : Bool}
  {result : Except Error Handle}

/-- A strategy that is taken into use is a new one, and touches no other. -/
theorem Vault.create_eq {handle : Handle} {made : Vault} (h : v.create strategy = (handle, made)) :
    handle.id = v.created ∧ made.registry = v.registry ∧ made.held = v.held ∧
      made.created = v.created + 1 ∧ ∀ id < v.created, made.tokensOf id = v.tokensOf id := by
  cases strategy with
  | basic encoded =>
    obtain ⟨rfl, rfl⟩ := Prod.mk.inj h
    exact ⟨rfl, rfl, rfl, rfl, fun _ _ => rfl⟩
  | bearer b =>
    obtain ⟨rfl, rfl⟩ := Prod.mk.inj h
    refine ⟨rfl, rfl, rfl, rfl, fun id hid => ?_⟩
    show (v.putTokens v.created b.tokens).tokensOf id = _
    rw [Vault.tokensOf_putTokens, if_neg (Nat.ne_of_lt hid)]

/-- A result that is there already, with the vault as it is. -/
theorem alone_result_iff {a b : α} :
    Alone Vault.step (.done a) v log b v' ↔ log = [] ∧ b = a ∧ v' = v := by
  rw [alone_done_iff, eq_comm (a := a), eq_comm (a := v)]

theorem alone_register_iff (h : Tidy v) :
    Alone Vault.step (register given strategy) v log result v' ↔
    log = [] ∧ Registers v given strategy result v' := by
  rw [register, Registry.fault?_eq, Registers]
  by_cases hempty : given = []
  · rw [if_pos hempty, if_pos hempty]
    exact alone_result_iff
  by_cases hblank : "" ∈ given
  · rw [if_neg hempty, if_neg hempty, if_pos hblank, if_pos hblank]
    exact alone_result_iff
  rw [if_neg hempty, if_neg hempty, if_neg hblank, if_neg hblank]
  cases hmade : v.create strategy with
  | mk handle made =>
    have hcreate : v.step (.create strategy) = .reply handle made := by rw [Vault.step, hmade]
    have henrol : made.step (.enrol given handle) =
        .reply () { made with registry := v.registry.enrolled given handle } := by
      rw [Vault.step, (Vault.create_eq hmade).2.1, Registry.enrol_eq h.nodup]
    refine (alone_ask_of_reply hcreate).trans ((alone_ask_of_reply henrol).trans ?_)
    simp only [Prod.mk.injEq, exists_and_left, exists_eq_left', and_assoc]
    exact alone_result_iff

theorem Tidy.register (h : Tidy v) (hreg : Registers v given strategy result v') : Tidy v' := by
  rw [Registers] at hreg
  split at hreg
  · exact hreg.2 ▸ h
  · split at hreg
    · exact hreg.2 ▸ h
    · next hfilled =>
      obtain ⟨handle, made, hmade, -, rfl⟩ := hreg
      obtain ⟨hid, -, hheld, hcreated, -⟩ := Vault.create_eq hmade
      refine ⟨?_, fun hblank => ?_, hheld.trans h.free, fun r hr => ?_⟩
      · rw [← Registry.enrol_eq h.nodup]
        exact Registry.nodup_starts_enrol given handle h.nodup
      · rcases Registry.mem_starts_enrolled.mp hblank with hmem | hmem
        · exact h.filled hmem
        · exact hfilled hmem
      · show r.handle.id < made.created
        rw [hcreated]
        rw [← Registry.enrol_eq h.nodup] at hr
        rcases Registry.mem_of_mem_enrol hr with hnew | hold
        · rw [hnew, hid]
          exact Nat.lt_succ_self _
        · exact Nat.lt_succ_of_lt (h.older r hold)

theorem unregister_none_eq (start : String) : unregister start none =
    .ask (.remove start) fun found => .done found.isSome := by
  apply congrArg (Flow.ask (I := interface) (Call.remove start))
  funext found
  cases found <;> rfl

/-- A removal that sends nothing. -/
theorem alone_quiet_iff (hnone : revocation? v start logoutUrl = none) :
    Alone Vault.step (.done (v.registry.handle? start).isSome)
        { v with registry := v.registry.filter fun r => r.start ≠ start } log removed v' ↔
      Unregisters v start logoutUrl log removed v' := by
  rw [alone_result_iff, Unregisters, hnone, Registry.isSome_handle?]
  simp only [Option.map_none, Option.toList_none, List.map_eq_nil_iff]
  exact ⟨fun ⟨hlog, hremoved, hv⟩ => ⟨hremoved, hv, hlog⟩,
    fun ⟨hremoved, hv, hlog⟩ => ⟨hlog, hremoved, hv⟩⟩

/-- A removal, where no start comes twice. The tokens of a session are asked for only when there is
an address to tell. -/
theorem alone_unregister_iff_of_nodup (h : v.registry.starts.Nodup)
    (hheld : logoutUrl.isSome → ∀ id clientId tokenServer,
      v.registry.handle? start = some (.bearer id clientId tokenServer) → id ∉ v.held) :
    Alone Vault.step (unregister start logoutUrl) v log removed v' ↔
      Unregisters v start logoutUrl log removed v' := by
  have hremove : v.step (.remove start) = .reply (v.registry.handle? start)
      { v with registry := v.registry.filter fun r => r.start ≠ start } := by
    rw [Vault.step, Registry.remove_eq h]
  cases logoutUrl with
  | none =>
    rw [unregister_none_eq, alone_ask_of_reply hremove]
    exact alone_quiet_iff rfl
  | some url =>
    rw [unregister_eq, alone_ask_of_reply hremove]
    rcases hfound : v.registry.handle? start with _ | ⟨id, encoded⟩ | ⟨id, clientId, server⟩
    · rw [← alone_quiet_iff (by simp only [revocation?, hfound]), hfound]
      rfl
    · rw [← alone_quiet_iff (by simp only [revocation?, hfound]), hfound]
      rfl
    · have hfree : id ∉ ({ v with
          registry := v.registry.filter fun r => r.start ≠ start } : Vault).held :=
        hheld rfl id clientId server hfound
      have hsent : revocation? v start (some url) =
          some (revokeRequest url clientId (v.tokensOf id).refresh.value) := by
        simp only [revocation?, hfound]
      have hthere : true = decide (start ∈ v.registry.starts) := by
        rw [← Registry.isSome_handle?, hfound]
        rfl
      rw [Unregisters, hsent, ← hthere]
      refine (alone_ask_of_reply (Vault.step_acquire_of_free hfree)).trans
        ((alone_ask_of_reply (Vault.step_release_hold hfree)).trans
          ((alone_ask_of_outside rfl).trans ?_))
      simp only [alone_result_iff]
      constructor
      · rintro ⟨answer, rest, rfl, rfl, hremoved, hv⟩
        exact ⟨hremoved, hv, rfl⟩
      · rintro ⟨hremoved, hv, hlog⟩
        obtain ⟨⟨c, answer⟩, rfl, rfl⟩ := List.map_eq_singleton_iff.mp hlog
        exact ⟨answer, [], rfl, rfl, hremoved, hv⟩

theorem alone_unregister_iff (h : Tidy v) :
    Alone Vault.step (unregister start logoutUrl) v log removed v' ↔
      Unregisters v start logoutUrl log removed v' :=
  alone_unregister_iff_of_nodup h.nodup fun _ id _ _ _ => by simp [h.free]

/-- A removal that tells the token server ends only where nobody holds the tokens. -/
theorem notMem_held_of_alone_unregister {url clientId tokenServer : String} {id : Nat}
    (hnodup : v.registry.starts.Nodup)
    (hfound : v.registry.handle? start = some (.bearer id clientId tokenServer))
    (h : Alone Vault.step (unregister start (some url)) v log removed v') : id ∉ v.held := by
  intro hheld
  have hremove : v.step (.remove start) = .reply (some (.bearer id clientId tokenServer))
      { v with registry := v.registry.filter fun r => r.start ≠ start } := by
    rw [Vault.step, Registry.remove_eq hnodup, hfound]
  rw [unregister_eq, alone_ask_of_reply hremove] at h
  refine not_alone_of_wait ?_ h
  simp [Vault.step, hheld]

theorem Tidy.unregister (h : Tidy v) (hun : Unregisters v start logoutUrl log removed v') :
    Tidy v' := by
  obtain ⟨-, rfl, -⟩ := hun
  have hkept : (v.registry.filter fun r => r.start ≠ start).Sublist v.registry :=
    List.filter_sublist
  exact ⟨h.nodup.sublist (hkept.map _), fun hmem => h.filled ((hkept.map _).subset hmem), h.free,
    fun r hr => h.older r (hkept.subset hr)⟩

end Steps

/-- What registrations and removals lead to, one after another, where nothing was registered at the
start. The replies to the requests of removals may be any. -/
inductive Reached : Vault → Prop
  | start : Reached {}
  | register {v v' : Vault} {given : List String} {strategy : Strategy}
      {log : List (Exchange interface)} {result : Except Error Handle} (h : Reached v)
      (hrun : Alone Vault.step (register given strategy) v log result v') : Reached v'
  | unregister {v v' : Vault} {start : String} {logoutUrl : Option String}
      {log : List (Exchange interface)} {removed : Bool} (h : Reached v)
      (hrun : Alone Vault.step (unregister start logoutUrl) v log removed v') : Reached v'

theorem tidy_of_reached {v : Vault} (h : Reached v) : Tidy v := by
  induction h with
  | start => exact ⟨List.nodup_nil, List.not_mem_nil, rfl, fun r hr => absurd hr List.not_mem_nil⟩
  | register h hrun ih => exact ih.register ((alone_register_iff ih).mp hrun).2
  | unregister h hrun ih => exact ih.unregister ((alone_unregister_iff ih).mp hrun)

/-- A map from starts to strategies, in the order in which the starts came. -/
structure IsOrderedMap (v : Vault) : Prop where
  nodup : v.registry.starts.Nodup
  filled : "" ∉ v.registry.starts
  registers : ∀ given strategy log result v',
    Alone Vault.step (register given strategy) v log result v' ↔
      log = [] ∧ Registers v given strategy result v'
  /-- In charge of the given starts is the new strategy, and of all others whichever was. -/
  handle?_enrolled : ∀ given handle start, (v.registry.enrolled given handle).handle? start =
    if start ∈ given then some handle else v.registry.handle? start
  /-- The new strategy is none of those in use, and leaves their tokens alone. -/
  new : ∀ strategy handle made, v.create strategy = (handle, made) →
    ∀ r ∈ v.registry, r.handle ≠ handle ∧ made.tokensOf r.handle.id = v.tokensOf r.handle.id
  unregisters : ∀ start logoutUrl log removed v',
    Alone Vault.step (unregister start logoutUrl) v log removed v' ↔
      Unregisters v start logoutUrl log removed v'
  finds : ∀ url handle, v.step (.find url) = .reply (some handle) v ↔
    if url = Registry.anyUrl then ∃ r rest, v.registry = r :: rest ∧ r.handle = handle
    else ∃ front r back, v.registry = front ++ r :: back ∧ r.handle = handle ∧
      url.startsWith r.start = true ∧ ∀ other ∈ front, url.startsWith other.start = false

/-- Whatever is registered and removed, the registry is a map that keeps the order of its starts. -/
theorem registry_keeps_order {v : Vault} (h : Reached v) : IsOrderedMap v := by
  have htidy := tidy_of_reached h
  refine ⟨htidy.nodup, htidy.filled, fun _ _ _ _ _ => alone_register_iff htidy,
    fun given handle start => Registry.handle?_enrolled given handle v.registry start,
    fun strategy handle made hmade r hr => ?_, fun _ _ _ _ _ => alone_unregister_iff htidy,
    fun url handle => ?_⟩
  · obtain ⟨hid, -, -, -, htokens⟩ := Vault.create_eq hmade
    have holder := htidy.older r hr
    refine ⟨fun heq => ?_, htokens _ holder⟩
    rw [heq, hid] at holder
    exact absurd holder (Nat.lt_irrefl _)
  · have hfind : v.step (.find url) = .reply (some handle) v ↔
        v.registry.find? url = some handle := by
      simp [Vault.step]
    rw [hfind]
    split
    · next hany =>
      rw [hany, Registry.find?_anyUrl]
      cases v.registry <;> simp
    · next hany => exact Registry.find?_eq_some_iff hany

/-- A start that is registered again keeps its place before a longer one, which an address that has
both never gets to. -/
theorem earlier_start_is_found : ∃ v second, Reached v ∧
    v.registry.starts = ["a/", "a/b/", "x/"] ∧ v.step (.find "a/b/c") = .reply (some second) v ∧
    v.registry.handle? "x/" = some second ∧ v.registry.handle? "a/b/" ≠ some second := by
  have hfirst := Reached.start.register (((registry_keeps_order .start).registers
    ["a/", "a/b/", "a/"] (.basic ⟨"1"⟩) [] _ _).mpr ⟨rfl, by
      rw [Registers, if_neg (by simp), if_neg (by decide)]
      exact ⟨_, _, rfl, rfl, rfl⟩⟩)
  have hsecond := hfirst.register (((registry_keeps_order hfirst).registers
    ["x/", "a/"] (.basic ⟨"2"⟩) [] _ _).mpr ⟨rfl, by
      rw [Registers, if_neg (by simp), if_neg (by decide)]
      exact ⟨_, _, rfl, rfl, rfl⟩⟩)
  refine ⟨_, .basic 1 ⟨"2"⟩, hsecond, by decide +kernel, ?_, by decide +kernel, by decide +kernel⟩
  refine ((registry_keeps_order hsecond).finds "a/b/c" (.basic 1 ⟨"2"⟩)).mpr ?_
  rw [if_neg (by decide)]
  exact ⟨[], ⟨"a/", .basic 1 ⟨"2"⟩⟩, [⟨"a/b/", .basic 0 ⟨"1"⟩⟩, ⟨"x/", .basic 1 ⟨"2"⟩⟩],
    by decide +kernel, rfl, by decide +kernel, fun _ h => absurd h List.not_mem_nil⟩

end AccountGate.Auth
