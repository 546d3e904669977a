import AccountGate.Proofs.Account.Course
import AccountGate.Proofs.Account.Settled

/-!
What one call of a refresh does, where settings are stored and the license stays as it is.
Main statements: every call that the course allows is one of the moves listed here; and what a task
knows of the settings it has read in the events of the trace.
-/

namespace AccountGate.Account

open License (Entitlement)

/-- The reply of a license that stays as it is, and of a store that takes every change. -/
def Served (license : Except Error (Option Json)) : (c : Call) → Reply c → Prop
  | .license, found => found = license
  | .apply _, stored => stored = .ok ()
  | _, _ => True

/-- The reply of a license that stays as it is, and of a clock on one day. -/
def Steady (license : Except Error (Option Json)) (day : Date) : (c : Call) → Reply c → Prop
  | .license, found => found = license
  | .auth .clock, clock => Date.ofUnix clock = day
  | _, _ => True

/-- What a check that has come so far says. -/
def Progress.Says : Progress → Bool → Prop
  | .dated claim _, supported => claim.supported = false ∧ supported = false
  | .weighed claim day key, supported =>
    supported = (License.KeyCache.check key claim day).isSupported
  | _, _ => False

open Shared (Merged)

/-- A step of a task: where it stands and what is shared, before and after an event. -/
inductive Move (license : Except Error (Option Json)) :
    Stage → Shared → AccountGate.Event interface → Stage → Shared → Prop
  | aside {stage s e s'} : Aside s s' → (∀ found, e = .inner .settings found →
      stage = .claiming ∧ found = s.store.settings) → Move license stage s e stage s'
  | know (s : Shared) : Move license .opening s (.inner .settings s.store.settings)
      (.seeking (s.store.settings.value Key.userId)) s
  | store {known s s'} (user : User) : Merged user.changes s s' →
      Move license (.seeking known) s (.inner (.apply user.changes) (.ok ())) (.stored known) s'
  | look {stage known} (s : Shared) : stage = .seeking known ∨ stage = .stored known →
      Move license stage s (.inner .settings s.store.settings) (.looked known s.store.settings) s
  | tell {known found} (s : Shared) : Move license (.looked known found) s
      (.inner (.setUser (userOf found).1 (userOf found).2) ()) (.afterTelling known found)
      { s with session :=
        { s.session with authorized := (userOf found).1, user := (userOf found).2 } }
  | claim {s s'} (claim : Entitlement) : Merged (SupportClaim.changes claim) s s' →
      Move license .claiming s (.inner (.apply (SupportClaim.changes claim)) (.ok ())) .claiming s'
  | key {s s' text r} : s' = { s with disk := s'.disk, serial := s'.serial } →
      Move license .claiming s (.inner (.storeKey text) r) .claiming s'
  | enter {stage} (s : Shared) : stage = .owing ∨ stage = .claiming → s.checking = false →
      Move license stage s (.inner .enterCheck ()) (.checking .entered)
        { s with checking := true }
  | view (s : Shared) : Move license (.checking .entered) s (.inner .settings s.store.settings)
      (.checking (.viewed s.store.settings)) s
  | read {found} (s : Shared) : Move license (.checking (.viewed found)) s
      (.inner .license license) (.checking (.claimed (claimUnder license found))) s
  | date {claim} (s : Shared) (clock : Int) : Move license (.checking (.claimed claim)) s
      (.answered (.auth .clock) clock) (.checking (.dated claim (Date.ofUnix clock))) s
  | load {claim day'} (s : Shared) : claim.supported = true →
      Move license (.checking (.dated claim day')) s
        (.inner .loadKey (License.KeyCache.load s.disk s.keyDir))
        (.checking (.weighed claim day' (License.KeyCache.load s.disk s.keyDir))) s
  | judge {progress supported} (s : Shared) : progress.Says supported →
      Move license (.checking progress) s (.inner (.setSupported supported) ())
        (.checking .judged) { s with session := { s.session with supported } }
  | leave (s : Shared) : Move license (.checking .judged) s (.inner .leaveCheck ()) .closing
      { s with checking := false }
  | save {s s'} (properties : Auth.Properties) : Merged (Program.credentialChanges properties) s s' →
      Move license .closing s (.inner (.apply (Program.credentialChanges properties)) (.ok ()))
        .closing s'

variable {license : Except Error (Option Json)} {stage stage' : Stage} {s s' : Shared}

/-- A call that is answered without any change but to tokens, events and counters. -/
theorem move_of_aside {c : Call} {r : Reply c} (h : Aside s s') (hafter : stage.after c r = stage)
    (hread : ∀ found, (.inner c r : AccountGate.Event interface) = .inner .settings found →
      stage = .claiming ∧ found = s.store.settings) :
    Move license stage s (.inner c r) (stage.after c r) s' := by
  rw [hafter]
  exact .aside h hread

theorem move_of_auth (hopen : stage.Open) {c : Auth.Call} {r : Auth.Reply c}
    (hs : s.step (.auth c) = .reply r s') :
    Move license stage s (.inner (.auth c) r) (stage.after (.auth c) r) s' :=
  move_of_aside (aside_of_auth hs) ((hopen.auth c).2 r) (by simp)

theorem move_of_enter {r : Unit} (hstage : stage = .owing ∨ stage = .claiming)
    (hs : s.step .enterCheck = .reply r s') :
    Move license stage s (.inner .enterCheck r) (stage.after .enterCheck r) s' := by
  have hfree : s.checking = false := by
    cases hchecking : s.checking with
    | false => rfl
    | true => exact absurd hs (by simp [Shared.step, hchecking])
  obtain rfl : { s with checking := true } = s' := by
    simpa [Shared.step, hfree] using hs
  rcases hstage with rfl | rfl
  · exact .enter s (.inl rfl) hfree
  · exact .enter s (.inr rfl) hfree

/-- A check under way: every call that the course allows there is a move. -/
theorem move_of_checking {progress : Progress} {c : Call} {r : Reply c}
    (hallow : Stage.Allows (.checking progress) c) (hs : s.step c = .reply r s')
    (hserved : Served license c r) :
    Move license (.checking progress) s (.inner c r) (Stage.after (.checking progress) c r)
      s' := by
  cases progress with
  | entered =>
    cases c with
    | settings =>
      obtain ⟨rfl, rfl⟩ := Outcome.reply.inj hs
      exact .view s
    | auth c => exact move_of_auth (by trivial) hs
    | _ => exact hallow.elim
  | viewed found =>
    cases c with
    | license =>
      obtain ⟨-, rfl⟩ := Outcome.reply.inj hs
      obtain rfl : r = license := hserved
      exact .read s
    | auth c => exact move_of_auth (by trivial) hs
    | _ => exact hallow.elim
  | claimed claim =>
    cases c with
    | auth c =>
      obtain rfl : c = .clock := hallow
      exact absurd hs (by simp [Shared.step, Auth.Vault.step])
    | _ => exact hallow.elim
  | dated claim day' =>
    cases c with
    | loadKey =>
      obtain ⟨rfl, rfl⟩ := Outcome.reply.inj hs
      exact .load s hallow
    | setSupported supported =>
      obtain ⟨rfl, rfl⟩ := Outcome.reply.inj hs
      exact .judge s hallow
    | auth c => exact move_of_auth (by trivial) hs
    | _ => exact hallow.elim
  | weighed claim day' key =>
    cases c with
    | setSupported supported =>
      obtain ⟨rfl, rfl⟩ := Outcome.reply.inj hs
      exact .judge s hallow
    | auth c => exact move_of_auth (by trivial) hs
    | _ => exact hallow.elim
  | judged =>
    cases c with
    | leaveCheck =>
      obtain ⟨rfl, rfl⟩ := Outcome.reply.inj hs
      exact .leave s
    | auth c => exact move_of_auth (by trivial) hs
    | _ => exact hallow.elim

/-- Every call that the course allows is a move. -/
theorem move_of_inner {c : Call} {r : Reply c} (hallow : stage.Allows c)
    (hs : s.step c = .reply r s') (hserved : Served license c r) :
    Move license stage s (.inner c r) (stage.after c r) s' := by
  cases stage with
  | opening =>
    cases c with
    | settings =>
      obtain ⟨rfl, rfl⟩ := Outcome.reply.inj hs
      exact .know s
    | auth c => exact move_of_auth (by trivial) hs
    | _ => exact hallow.elim
  | seeking known =>
    cases c with
    | settings =>
      obtain ⟨rfl, rfl⟩ := Outcome.reply.inj hs
      exact .look s (.inl rfl)
    | license =>
      obtain ⟨-, rfl⟩ := Outcome.reply.inj hs
      exact move_of_aside (.refl s) rfl (by simp)
    | apply changes =>
      obtain ⟨user, rfl⟩ := hallow
      obtain rfl : r = .ok () := hserved
      exact .store user (Shared.merged_of_apply hs)
    | auth c => exact move_of_auth (by trivial) hs
    | _ => exact hallow.elim
  | stored known =>
    cases c with
    | settings =>
      obtain ⟨rfl, rfl⟩ := Outcome.reply.inj hs
      exact .look s (.inr rfl)
    | auth c => exact move_of_auth (by trivial) hs
    | _ => exact hallow.elim
  | looked known found =>
    cases c with
    | setUser authorized user =>
      obtain ⟨rfl, rfl⟩ := Prod.mk.inj hallow
      obtain ⟨-, rfl⟩ := Outcome.reply.inj hs
      exact .tell s
    | auth c => exact move_of_auth (by trivial) hs
    | _ => exact hallow.elim
  | owing =>
    cases c with
    | emit event =>
      obtain ⟨-, rfl⟩ := Outcome.reply.inj hs
      exact move_of_aside ⟨rfl⟩ rfl (by simp)
    | enterCheck => exact move_of_enter (.inl rfl) hs
    | auth c => exact move_of_auth (by trivial) hs
    | _ => exact hallow.elim
  | claiming =>
    cases c with
    | settings =>
      obtain ⟨rfl, rfl⟩ := Outcome.reply.inj hs
      refine move_of_aside (.refl s) rfl fun found heq => ⟨rfl, ?_⟩
      cases heq
      rfl
    | license =>
      obtain ⟨-, rfl⟩ := Outcome.reply.inj hs
      exact move_of_aside (.refl s) rfl (by simp)
    | apply changes =>
      obtain ⟨claim, rfl⟩ := hallow
      obtain rfl : r = .ok () := hserved
      exact .claim claim (Shared.merged_of_apply hs)
    | storeKey text => exact .key (Shared.rest_eq_of_storeKey hs)
    | enterCheck => exact move_of_enter (.inr rfl) hs
    | auth c => exact move_of_auth (by trivial) hs
    | _ => exact hallow.elim
  | checking progress => exact move_of_checking hallow hs hserved
  | closing =>
    cases c with
    | emit event =>
      obtain ⟨-, rfl⟩ := Outcome.reply.inj hs
      exact move_of_aside ⟨rfl⟩ rfl (by simp)
    | apply changes =>
      obtain ⟨properties, rfl⟩ := hallow
      obtain rfl : r = .ok () := hserved
      exact .save properties (Shared.merged_of_apply hs)
    | auth c => exact move_of_auth (by trivial) hs
    | _ => exact hallow.elim

/-- A call that the course allows and the surroundings leave to the outside is one for a request or
for the time. -/
theorem auth_of_outside {c : Call} (hallow : stage.Allows c) {v : Shared}
    (hv : v.step c = .outside) : ∃ c', c = .auth c' := by
  cases c with
  | auth c => exact ⟨c, rfl⟩
  | enterCheck => exact absurd hv (by simp only [Shared.step]; split <;> simp)
  | _ =>
    -- The others are answered at once, or no stage makes them.
    first
      | simp [Shared.step] at hv; done
      | cases stage with
        | checking progress => cases progress <;> exact hallow.elim
        | _ => exact hallow.elim

/-- Every reply from outside is a move. -/
theorem move_of_answered {c : Call} {r : Reply c} (hallow : stage.Allows c)
    (houtside : ∃ v : Shared, v.step c = .outside) (s : Shared) :
    Move license stage s (.answered c r) (stage.after c r) s := by
  obtain ⟨v, hv⟩ := houtside
  obtain ⟨c, rfl⟩ := auth_of_outside hallow hv
  by_cases hopen : stage.Open
  · rw [(hopen.auth c).2 r]
    exact .aside (.refl s) fun found he => absurd he (by simp)
  · -- Only a check that has its claim waits for the day.
    cases stage with
    | checking progress =>
      cases progress with
      | claimed claim =>
        obtain rfl : c = .clock := hallow
        exact .date s r
      | _ => exact absurd trivial hopen
    | _ => exact absurd trivial hopen

/-- What a task reads of the settings is what is stored. -/
theorem Move.found_eq {e : AccountGate.Event interface} (hm : Move license stage s e stage' s')
    {found : Settings} (he : e = .inner .settings found) : found = s.store.settings := by
  cases hm with
  | aside _ hread => exact (hread found he).2
  | know _ => cases he; rfl
  | look _ _ => cases he; rfl
  | view _ => cases he; rfl
  | _ => cases he

section Knowledge

variable {ι : Type} {i : ι} {front log : Trace interface ι} {found : Settings}

/-- The settings that a task read first. -/
def FirstSees (i : ι) (log : Trace interface ι) (found : Settings) : Prop :=
  ∃ front rest, log = front ++ (i, .inner .settings found) :: rest ∧
    ∀ other, (i, .inner .settings other) ∉ front

/-- The settings that a task read last, after `front` had happened. -/
def LastSees (i : ι) (front log : Trace interface ι) (found : Settings) : Prop :=
  ∃ rest, log = front ++ (i, .inner .settings found) :: rest ∧
    ∀ other, (i, .inner .settings other) ∉ rest

theorem FirstSees.append (h : FirstSees i log found) (more : Trace interface ι) :
    FirstSees i (log ++ more) found := by
  obtain ⟨front, rest, rfl, hfront⟩ := h
  exact ⟨front, rest ++ more, by simp, hfront⟩

theorem firstSees_snoc (h : ∀ other, (i, .inner .settings other) ∉ log) (found : Settings) :
    FirstSees i (log ++ [(i, .inner .settings found)]) found :=
  ⟨log, [], rfl, h⟩

theorem lastSees_snoc (i : ι) (log : Trace interface ι) (found : Settings) :
    LastSees i log (log ++ [(i, .inner .settings found)]) found :=
  ⟨[], rfl, fun _ => List.not_mem_nil⟩

theorem LastSees.mem (h : LastSees i front log found) : (i, .inner .settings found) ∈ log := by
  obtain ⟨rest, rfl, -⟩ := h
  exact List.mem_append_right _ List.mem_cons_self

theorem LastSees.snoc (h : LastSees i front log found) {e : ι × AccountGate.Event interface}
    (he : ∀ other, e ≠ (i, .inner .settings other)) : LastSees i front (log ++ [e]) found := by
  obtain ⟨rest, rfl, hrest⟩ := h
  refine ⟨rest ++ [e], by simp, fun other hmem => ?_⟩
  rcases List.mem_append.mp hmem with hmem | hmem
  · exact hrest other hmem
  · exact he other (List.mem_singleton.mp hmem).symm

/-- What a task knows from the settings that it has read. -/
def Knows (license : Except Error (Option Json)) (i : ι) (log : Trace interface ι) : Stage → Prop
  | .opening => ∀ other, (i, .inner .settings other) ∉ log
  | .seeking known => ∃ first, FirstSees i log first ∧ first.value Key.userId = known
  | .stored known => ∃ first, FirstSees i log first ∧ first.value Key.userId = known
  | .looked _ found => ∃ front, LastSees i front log found
  | .checking (.viewed found) => ∃ front, LastSees i front log found
  | .checking (.claimed claim) =>
    ∃ front found, LastSees i front log found ∧ claim = claimUnder license found
  | .checking (.dated claim _) =>
    ∃ front found, LastSees i front log found ∧ claim = claimUnder license found
  | .checking (.weighed claim _ _) =>
    ∃ front found, LastSees i front log found ∧ claim = claimUnder license found
  | _ => True

/-- What a task knows stays true when it reads no settings. -/
theorem Knows.snoc (h : Knows license i log stage) {e : ι × AccountGate.Event interface}
    (he : ∀ other, e ≠ (i, .inner .settings other)) : Knows license i (log ++ [e]) stage := by
  have hfirst {known : String}
      (h : ∃ first, FirstSees i log first ∧ first.value Key.userId = known) :
      ∃ first, FirstSees i (log ++ [e]) first ∧ first.value Key.userId = known :=
    h.imp fun _ h => ⟨h.1.append [e], h.2⟩
  have hlast {found : Settings} (h : ∃ front, LastSees i front log found) :
      ∃ front, LastSees i front (log ++ [e]) found := h.imp fun _ h => h.snoc he
  have hclaim {claim : Entitlement}
      (h : ∃ front found, LastSees i front log found ∧ claim = claimUnder license found) :
      ∃ front found, LastSees i front (log ++ [e]) found ∧ claim = claimUnder license found :=
    h.imp fun _ h => h.imp fun _ h => ⟨h.1.snoc he, h.2⟩
  cases stage with
  | opening =>
    intro other hmem
    rcases List.mem_append.mp hmem with hmem | hmem
    · exact h other hmem
    · exact he other (List.mem_singleton.mp hmem).symm
  | seeking known => exact hfirst h
  | stored known => exact hfirst h
  | looked known found => exact hlast h
  | checking progress =>
    cases progress with
    | viewed found => exact hlast h
    | claimed claim => exact hclaim h
    | dated claim day => exact hclaim h
    | weighed claim day key => exact hclaim h
    | _ => trivial
  | _ => trivial

/-- What a task knows after a move of its own. -/
theorem Knows.move {e : AccountGate.Event interface} (h : Knows license i log stage)
    (hm : Move license stage s e stage' s') : Knows license i (log ++ [(i, e)]) stage' := by
  have hquiet {c : Call} {r : Reply c} (hc : c ≠ .settings) (other : Settings) :
      ((i, .inner c r) : ι × AccountGate.Event interface) ≠ (i, .inner .settings other) := by
    intro heq
    cases heq
    exact hc rfl
  cases hm with
  | aside _ hsettings =>
    by_cases hread : ∃ found, e = .inner .settings found
    · obtain ⟨found, rfl⟩ := hread
      rw [(hsettings found rfl).1]
      trivial
    · exact h.snoc fun other heq => hread ⟨other, (Prod.mk.inj heq).2⟩
  | know _ => exact ⟨_, firstSees_snoc h _, rfl⟩
  | store user _ => exact h.snoc (hquiet (by simp))
  | look _ hstage => exact ⟨log, lastSees_snoc i log _⟩
  | tell _ =>
    rw [Stage.afterTelling]
    split <;> trivial
  | claim _ _ => trivial
  | key _ => trivial
  | enter _ _ _ => trivial
  | view _ => exact ⟨log, lastSees_snoc i log _⟩
  | @read found _ =>
    obtain ⟨front, hfront⟩ := h
    exact ⟨front, found, hfront.snoc (hquiet (by simp)), rfl⟩
  | date _ clock =>
    obtain ⟨front, found, hfront, hclaim⟩ := h
    exact ⟨front, found, hfront.snoc (fun other heq => absurd heq (by simp)), hclaim⟩
  | load _ _ => exact h.snoc (hquiet (by simp))
  | judge _ _ => trivial
  | leave _ => trivial
  | save _ _ => trivial

end Knowledge

end AccountGate.Account
