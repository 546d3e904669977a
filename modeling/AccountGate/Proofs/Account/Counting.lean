import AccountGate.Proofs.Account.Authorized
import AccountGate.Proofs.Account.Parts

/-!
What is counted around an account. Main statements: each request for new tokens is counted once, by
what came of it; a sign-in is counted once, by how it ended; and a check is counted once, under its
outcome, unless the key that it needs cannot be read: then it is rejected and not counted.
-/

namespace AccountGate

/-- How the outcome of a refresh is called where it is counted. -/
def Auth.RefreshOutcome.label : Auth.RefreshOutcome → String
  | .refreshed _ => "refreshed"
  | .unreachable _ => "transient"
  | .rejected _ => "expired"

theorem Auth.name_refreshCounter (answer : Answer) : (Auth.refreshCounter answer).name =
    Counter.labelled "auth_token_refresh_total" "outcome" (Auth.refreshOutcome answer).label := by
  rw [Auth.refreshCounter]
  cases Auth.refreshOutcome answer <;> rfl

namespace Account

open AccountGate.Flow (Makes Path Alone path_ask_iff path_ask_done_iff path_done_iff)
open Auth (refreshCounter)
open License (Entitlement)

variable {α : Type} {xs : List (Exchange interface)}

def inVault? : Exchange interface → Option (Exchange Auth.interface)
  | ⟨.auth c, r⟩ => some ⟨c, r⟩
  | _ => none

/-- The exchanges with the registry, the tokens and the service. -/
def inVault (xs : List (Exchange interface)) : List (Exchange Auth.interface) :=
  xs.filterMap inVault?

def countsIn (xs : List (Exchange interface)) : List Counter := Auth.countsIn (inVault xs)

/-- What is to be counted of refreshes. -/
def owed (xs : List (Exchange interface)) : List Counter :=
  (Auth.refreshAnswers (inVault xs)).map refreshCounter

/-- What has been counted of refreshes. -/
def paid (xs : List (Exchange interface)) : List Counter := (countsIn xs).filter Counter.isOfRefresh

theorem inVault_map_ofVault (ys : List (Exchange Auth.interface)) : inVault (ys.map ofVault) = ys := by
  rw [inVault, List.filterMap_map]
  exact List.filterMap_some

theorem countsIn_append (xs ys : List (Exchange interface)) :
    countsIn (xs ++ ys) = countsIn xs ++ countsIn ys := by
  simp [countsIn, Auth.countsIn, inVault]

theorem owed_append (xs ys : List (Exchange interface)) : owed (xs ++ ys) = owed xs ++ owed ys := by
  simp [owed, Auth.refreshAnswers, inVault]

theorem paid_append (xs ys : List (Exchange interface)) : paid (xs ++ ys) = paid xs ++ paid ys := by
  rw [paid, countsIn_append, List.filter_append]
  rfl

/-- A call that counts nothing. -/
def Call.IsSilent : Call → Prop
  | .auth (.count _) => False
  | _ => True

theorem countsIn_eq_nil (h : ∀ x ∈ xs, x.call.IsSilent) : countsIn xs = [] := by
  apply List.filterMap_eq_nil_iff.mpr
  intro y hy
  obtain ⟨⟨c, r⟩, hx, hinner⟩ := List.mem_filterMap.mp hy
  have hsilent := h _ hx
  cases c with
  | auth c =>
    obtain rfl := Option.some.inj hinner
    cases c with
    | count counter => exact hsilent.elim
    | _ => rfl
  | _ => exact absurd hinner (by simp [inVault?])

section Books

/-- A program around credentials goes down its own path inside an account. -/
theorem path_ofAuth {p : Auth.Program α} {q : Program α} (h : Path (Program.ofAuth p) xs q) :
    ∃ ys p', xs = ys.map ofVault ∧ Path p ys p' ∧ q = Program.ofAuth p' := by
  induction p generalizing xs with
  | done a =>
    obtain ⟨rfl, rfl⟩ := path_done_iff.mp h
    exact ⟨[], .done a, rfl, .nil _, rfl⟩
  | ask c next ih =>
    rcases path_ask_iff.mp h with ⟨rfl, rfl⟩ | ⟨r, rest, rfl, hrest⟩
    · exact ⟨[], .ask c next, rfl, .nil _, rfl⟩
    · obtain ⟨ys, p', rfl, hp, rfl⟩ := ih r hrest
      exact ⟨⟨c, r⟩ :: ys, p', rfl, .cons (I := Auth.interface) r hp, rfl⟩

/-- The books of refreshes: what is owed has been paid, but for one at most; and that is paid before
the program ends. -/
def KeepsBooks (xs : List (Exchange interface)) (q : Program α) : Prop :=
  ∃ due : Option Answer, owed xs = paid xs ++ (due.map refreshCounter).toList ∧
    ∀ a, q = .done a → due = none

/-- Credentials are not withheld by anybody else. -/
def Open (xs : List (Exchange interface)) : Prop :=
  ∀ suspended, ⟨.auth .suspended, suspended⟩ ∈ xs → suspended = false

theorem keepsBooks_of_errand {p : Auth.Program α} {q : Program α} (he : Auth.Errand p)
    (h : Path (Program.ofAuth p) xs q) (hopen : Open xs) : KeepsBooks xs q := by
  obtain ⟨ys, p', rfl, hp, rfl⟩ := path_ofAuth h
  obtain ⟨due, hbalance, hleads⟩ := Auth.balance_of_path he.counts hp fun suspended hmem =>
    hopen suspended (List.mem_map_of_mem (f := ofVault) hmem)
  rw [Option.map_none, Option.toList_none, List.nil_append] at hbalance
  refine ⟨due, ?_, fun a ha => ?_⟩
  · -- An errand counts refreshes only.
    have hall : ∀ counter ∈ Auth.countsIn ys, counter.isOfRefresh = true := by
      intro counter hcounter
      have hmem : counter ∈ (Auth.refreshAnswers ys).map refreshCounter := by
        rw [hbalance]
        exact List.mem_append_left _ hcounter
      obtain ⟨answer, -, rfl⟩ := List.mem_map.mp hmem
      exact Auth.isOfRefresh_refreshCounter answer
    rw [owed, paid, countsIn, inVault_map_ofVault, hbalance, List.filter_eq_self.mpr hall]
  · cases p' with
    | done b => exact hleads
    | ask c next => exact absurd ha (by simp [Program.ofAuth, Flow.expand, Program.call, Flow.call,
        Flow.bind])

/-- A direct call is no refresh, and counts none. -/
theorem books_of_direct {c : Call} (hc : c.IsDirect) (r : Reply c) (xs : List (Exchange interface)) :
    owed (⟨c, r⟩ :: xs) = owed xs ∧ paid (⟨c, r⟩ :: xs) = paid xs := by
  cases c with
  | auth c =>
    cases c with
    | count counter =>
      have hother : counter.isOfRefresh = false := hc
      refine ⟨rfl, ?_⟩
      change (counter :: countsIn xs).filter Counter.isOfRefresh = paid xs
      rw [List.filter_cons_of_neg (by simp [hother])]
      rfl
    | clock => exact ⟨rfl, rfl⟩
    | _ => exact hc.elim
  | _ => exact ⟨rfl, rfl⟩

/-- So the books of every program are balanced that is made of errands and direct calls. -/
theorem Built.keepsBooks {p q : Program α} (hp : Built p) (h : Path p xs q) (hopen : Open xs) :
    KeepsBooks xs q := by
  induction hp generalizing xs with
  | done a =>
    obtain ⟨rfl, rfl⟩ := path_done_iff.mp h
    exact ⟨none, rfl, fun _ _ => rfl⟩
  | @ask c next hc _ ih =>
    rcases path_ask_iff.mp h with ⟨rfl, rfl⟩ | ⟨r, rest, rfl, hrest⟩
    · exact ⟨none, rfl, fun _ _ => rfl⟩
    · obtain ⟨due, hdue, hdone⟩ := ih r hrest fun suspended hmem =>
        hopen suspended (List.mem_cons_of_mem _ hmem)
      obtain ⟨howed, hpaid⟩ := books_of_direct hc r rest
      exact ⟨due, by rw [howed, hpaid, hdue], hdone⟩
  | @errand _ p f he _ ih =>
    rcases h.of_bind with ⟨c, next, hfirst, rfl⟩ | ⟨b, ys, zs, rfl, hfirst, hsecond⟩
    · obtain ⟨due, hdue, -⟩ := keepsBooks_of_errand he hfirst hopen
      exact ⟨due, hdue, fun a ha => absurd ha (by simp)⟩
    · obtain ⟨first, hfirst, hnone⟩ := keepsBooks_of_errand he hfirst fun suspended hmem =>
        hopen suspended (List.mem_append_left _ hmem)
      obtain ⟨due, hdue, hdone⟩ := ih b hsecond fun suspended hmem =>
        hopen suspended (List.mem_append_right _ hmem)
      obtain rfl := hnone b rfl
      rw [Option.map_none, Option.toList_none, List.append_nil] at hfirst
      exact ⟨due, by rw [owed_append, paid_append, hfirst, hdue, List.append_assoc], hdone⟩

end Books

section Checks

variable {claim : Entitlement} {status : License.Status}

theorem path_report {key : Except Disk.Fault String} {day : Date}
    (h : Path (Program.report key claim day) xs (.done status)) :
    status = License.KeyCache.check key claim day ∧
      xs = if License.KeyCache.isCounted key claim then [⟨.auth (.count (.ofStatus status)), ()⟩]
        else [] := by
  rw [Program.report] at h
  split at h
  · next hcounted =>
    obtain ⟨_, rest, rfl, hrest⟩ := path_ask_done_iff.mp h
    obtain ⟨rfl, hstatus⟩ := path_done_iff.mp hrest
    obtain rfl := Flow.done.inj hstatus
    exact ⟨rfl, by rw [if_pos hcounted]⟩
  · next hnot =>
    obtain ⟨rfl, hstatus⟩ := path_done_iff.mp h
    exact ⟨Flow.done.inj hstatus, by rw [if_neg hnot]⟩

/-- A check that has a key, or needs none, is counted under its outcome; one that cannot read the
key is rejected, and not counted. -/
theorem counts_of_check (h : Path (Program.check claim) xs (.done status)) :
    ((∀ fault, ⟨.loadKey, .error fault⟩ ∉ xs) → countsIn xs = [.ofStatus status]) ∧
    ∀ fault, ⟨.loadKey, .error fault⟩ ∈ xs → claim.supported = true ∧
      status = .rejected (.keyUnavailable (License.KeyError.unstorable fault).message) ∧
      countsIn xs = [] := by
  rw [Program.check_eq] at h
  obtain ⟨clock, rest, rfl, hclock⟩ := path_ask_done_iff.mp h
  split at hclock
  · next hsupported =>
    obtain ⟨key, rest, rfl, hkey⟩ := path_ask_done_iff.mp hclock
    obtain ⟨hstatus, rfl⟩ := path_report hkey
    cases key with
    | ok text =>
      have hcounted : License.KeyCache.isCounted (.ok text) claim = true := by
        simp [License.KeyCache.isCounted, Except.isOk, Except.toBool]
      rw [if_pos hcounted]
      exact ⟨fun _ => rfl, fun fault hmem => absurd hmem (by simp)⟩
    | error cause =>
      have hnot : ¬ License.KeyCache.isCounted (.error cause) claim = true := by
        simp [License.KeyCache.isCounted, hsupported, Except.isOk, Except.toBool]
      rw [if_neg hnot]
      constructor
      · intro hnone
        exact absurd (List.mem_cons_of_mem _ List.mem_cons_self) (hnone cause)
      · intro fault hmem
        obtain rfl : fault = cause := by simpa using hmem
        refine ⟨hsupported, ?_, rfl⟩
        simp [hstatus, License.KeyCache.check, hsupported]
  · next hunsupported =>
    obtain ⟨-, rfl⟩ := path_report hclock
    have hcounted : License.KeyCache.isCounted (.ok "") claim = true := by
      simp [License.KeyCache.isCounted, Except.isOk, Except.toBool]
    rw [if_pos hcounted]
    exact ⟨fun _ => rfl, fun fault hmem => absurd hmem (by simp)⟩

/-- So it is in every state of the cache. -/
theorem counters_of_check {s t : Shared} (h : Alone Shared.step (Program.check claim) s xs status t) :
    t.counters = s.counters ++
      if claim.supported && !(License.KeyCache.load s.disk s.keyDir).isOk then []
      else [.ofStatus status] := by
  have hreport {key : Except Disk.Fault String} {day : Date} {rest : List (Exchange interface)}
      (h : Alone Shared.step (Program.report key claim day) s rest status t) :
      t.counters = s.counters ++
        if License.KeyCache.isCounted key claim then [.ofStatus status] else [] := by
    rw [Program.report] at h
    split at h
    · next hcounted =>
      rw [Flow.alone_ask_of_reply rfl, Flow.alone_done_iff] at h
      rw [if_pos hcounted, ← h.2.2, h.2.1]
    · next hnot =>
      rw [Flow.alone_done_iff] at h
      rw [if_neg hnot, ← h.2.2, List.append_nil]
  rw [Program.check_eq, Flow.alone_ask_of_outside rfl] at h
  obtain ⟨clock, rest, -, hclock⟩ := h
  split at hclock
  · next hsupported =>
    rw [Flow.alone_ask_of_reply rfl] at hclock
    rw [hreport hclock]
    generalize License.KeyCache.load s.disk s.keyDir = key
    cases key <;> simp [License.KeyCache.isCounted, hsupported, Except.isOk, Except.toBool]
  · next hunsupported =>
    rw [hreport hclock]
    simp [License.KeyCache.isCounted, eq_false_of_ne_true hunsupported]

end Checks

section SignIn

theorem Call.IsInert.isSilent {c : Call} (h : c.IsInert) : c.IsSilent := by
  cases c with
  | auth c =>
    cases c with
    | count counter =>
      have hsame := h { store := .memory .empty none, keyDir := "", licenseDir := "" } () _ rfl
      exact absurd (congrArg Shared.counters hsame) (by simp)
    | _ => trivial
  | _ => trivial

theorem silent_ofAuth {p : Auth.Program α} (h : Makes Auth.Call.IsPlain p) :
    Makes Call.IsSilent (Program.ofAuth p) :=
  Program.makes_inside <| h.mono fun c hc => by cases c with
    | count counter => exact hc.elim
    | _ => trivial

theorem silent_establish (cfg : Config) (c : Auth.Credentials) :
    Makes Call.IsSilent (Program.establish cfg c).run := by
  have hregister : Makes Call.IsSilent (Program.registerSession cfg c).run :=
    Program.makes_registerSession_of (fun _ => trivial) fun _ => trivial
  have hproperties : Makes Call.IsSilent (Program.credentialProperties cfg) :=
    silent_ofAuth (Auth.plain_propertiesFor _)
  have hsave := Program.makes_saveCredentials_of hproperties fun _ => trivial
  exact Program.makes_establish_of hregister hsave trivial fun _ => trivial

/-- A sign-in is counted when it has ended, refused or not, and counts nothing else. -/
theorem counts_of_login {cfg : Config} {given : Option Nat}
    {result : Except Error Program.Refreshes}
    (h : Path (Program.loginBy cfg given) xs (.done result)) :
    countsIn xs = [.login result.isOk] := by
  rw [Program.loginBy_eq, Program.counted_eq] at h
  rcases h.of_bind with ⟨c, next, -, hq⟩ | ⟨ended, ys, zs, rfl, hattempt, hcount⟩
  · exact absurd hq (by simp)
  · have hsilent : Makes Call.IsSilent
        (Program.obtain cfg given >>= Program.establish cfg : Attempt Program.Refreshes).run := by
      rw [Program.run_bind]
      refine Program.makes_andThen ?_ (silent_establish cfg)
      exact (Program.makes_obtain cfg given).mono fun _ => Call.IsInert.isSilent
    obtain ⟨_, rest, rfl, hend⟩ := path_ask_done_iff.mp hcount
    obtain ⟨rfl, hresult⟩ := path_done_iff.mp hend
    rw [countsIn_append, countsIn_eq_nil (hsilent.path hattempt).2, Flow.done.inj hresult]
    rfl

end SignIn

section Runs

theorem counters_of_step {s s' : Shared} {c : Call} {r : Reply c} (hs : s.step c = .reply r s') :
    s'.counters = s.counters ++ countsIn [⟨c, r⟩] := by
  cases c with
  | auth c =>
    by_cases hcount : ∃ counter, c = .count counter
    · obtain ⟨counter, rfl⟩ := hcount
      obtain ⟨-, rfl⟩ := Outcome.reply.inj hs
      rfl
    · have hother (counter : Counter) : c ≠ .count counter := fun heq => hcount ⟨counter, heq⟩
      have hsilent : Call.IsSilent (.auth c) := by
        cases c with
        | count counter => exact hother counter rfl
        | _ => trivial
      rw [countsIn_eq_nil (List.forall_mem_singleton.mpr hsilent), List.append_nil]
      rw [step_auth s hother] at hs
      split at hs
      · rw [← (Outcome.reply.inj hs).2]
      · exact absurd hs (by simp)
      · exact absurd hs (by simp)
  | apply changes =>
    rw [← (Outcome.reply.inj hs).2]
    exact (List.append_nil _).symm
  | storeKey text =>
    rw [Shared.rest_eq_of_storeKey hs]
    exact (List.append_nil _).symm
  | _ =>
    rw [Shared.rest_eq_of_step hs (by simp) (by simp) (by simp)]
    exact (List.append_nil _).symm

/-- A call that is put outside counts nothing. -/
theorem countsIn_of_outside {s : Shared} {c : Call} (hs : s.step c = .outside) (r : Reply c) :
    countsIn [⟨c, r⟩] = [] := by
  refine countsIn_eq_nil (List.forall_mem_singleton.mpr ?_)
  cases c with
  | auth c =>
    cases c with
    | count counter => exact absurd hs (by simp [Shared.step])
    | _ => trivial
  | _ => trivial

variable {ι : Type} [DecidableEq ι] {w₀ w : World interface Shared ι α} {log : Trace interface ι}
  {p : ι → Program α}

/-- All that is counted is what the tasks have counted, in the order in which they did. -/
theorem counters_of_reaches (h : World.Reaches Shared.step w₀ log w)
    (hp : ∀ i, w₀.task i = .running (p i)) : w.state.counters =
      w₀.state.counters ++ countsIn (log.filterMap fun e => e.2.reply?) := by
  induction h with
  | start => exact (List.append_nil _).symm
  | @step log w e w' hreach hs ih =>
    rw [List.filterMap_append, countsIn_append, ← List.append_assoc, ← ih]
    cases hs with
    | inner ht hr => exact counters_of_step hr
    | asked ht hr => exact (List.append_nil _).symm
    | @answered i c next r ht =>
      obtain ⟨s, hs⟩ := hreach.outside_of_waiting hp ht
      change w.state.counters = w.state.counters ++ countsIn [⟨c, r⟩]
      rw [countsIn_of_outside hs r, List.append_nil]

theorem open_of_reaches (h : World.Reaches Shared.step w₀ log w)
    (hp : ∀ i, w₀.task i = .running (p i)) (i : ι) : Open (World.repliesTo i log) := by
  intro suspended hmem
  rcases h.origin hp hmem with ⟨s, s', hs⟩ | ⟨s, hs⟩
  · exact (Outcome.reply.inj hs).1.symm
  · exact absurd hs (by simp [Shared.step, Auth.Vault.step])

end Runs

/-- A question for a header asks for new tokens once at most, and counts what came of it under that
name. A check is counted once under the name of its outcome, unless the key that it needs cannot be
read: then it is rejected, and nothing is counted. A sign-in is counted once, by how it ended. In
every run the counters are what the tasks have counted, and each task has counted the refreshes
that it made and no others, but for one whose answer it has just got. -/
theorem all_but_unreadable_keys_are_counted (handle : Auth.Handle) (claim : Entitlement)
    (cfg : Config) :
    (∀ (xs : List (Exchange Auth.interface)) (a : Auth.Authorization),
      Path (Auth.Program.header handle) xs (.done a) → ∃ answer : Option Answer,
        Auth.refreshAnswers xs = answer.toList ∧
        (Auth.countsIn xs).map Counter.name = (answer.map fun answer =>
          Counter.labelled "auth_token_refresh_total" "outcome"
            (Auth.refreshOutcome answer).label).toList) ∧
    (∀ (xs : List (Exchange interface)) (status : License.Status),
      Path (Program.check claim) xs (.done status) →
      ((∀ fault, ⟨.loadKey, .error fault⟩ ∉ xs) → (countsIn xs).map Counter.name =
        [Counter.labelled "license_verifications_total" "result" status.label]) ∧
      ∀ fault, ⟨.loadKey, .error fault⟩ ∈ xs → claim.supported = true ∧
        status = .rejected (.keyUnavailable (License.KeyError.unstorable fault).message) ∧
        countsIn xs = []) ∧
    (∀ (s t : Shared) (xs : List (Exchange interface)) (status : License.Status),
      Alone Shared.step (Program.check claim) s xs status t →
      t.counters = s.counters ++
        if claim.supported && !(License.KeyCache.load s.disk s.keyDir).isOk then []
        else [.ofStatus status]) ∧
    (∀ (given : Option Nat) (xs : List (Exchange interface))
      (result : Except Error Program.Refreshes),
      Path (Program.loginBy cfg given) xs (.done result) → (countsIn xs).map Counter.name =
        [Counter.labelled "account_logins_total" "outcome"
          (if result.isOk then "success" else "failure")]) ∧
    ∀ (ι : Type) [DecidableEq ι] (actions : ι → Action) (s : Shared) (log : Trace interface ι)
      (w : World interface Shared ι Unit),
      (∀ i p spares, actions i = .other p spares → Built p) →
      World.Reaches Shared.step (begun cfg actions s) log w →
      w.state.counters = s.counters ++ countsIn (log.filterMap fun e => e.2.reply?) ∧
      ∀ i, KeepsBooks (World.repliesTo i log) (w.task i).program := by
  refine ⟨fun xs a h => ?_, fun xs status h => ?_, fun s t xs status => counters_of_check,
    fun given xs result h => ?_, ?_⟩
  · obtain ⟨answer, hanswers, hcounts⟩ := Auth.counts_of_header h
    refine ⟨answer, hanswers, ?_⟩
    rw [hcounts]
    cases answer with
    | none => rfl
    | some answer => exact congrArg (fun name => [name]) (Auth.name_refreshCounter answer)
  · obtain ⟨hcounted, hunreadable⟩ := counts_of_check h
    refine ⟨fun hread => ?_, hunreadable⟩
    rw [hcounted hread]
    rfl
  · rw [counts_of_login h]
    rfl
  · intro ι _ actions s log w hbuilt h
    have hp (i : ι) : (begun cfg actions s).task i = .running ((actions i).program cfg) := rfl
    refine ⟨counters_of_reaches h hp, fun i => ?_⟩
    exact (built_program cfg (hbuilt i)).keepsBooks (h.path hp i) (open_of_reaches h hp i)

/-- A claim is rejected where no key is on the disk, and that is not counted. -/
theorem rejected_claim_is_not_counted :
    let s : Shared := { store := .memory .empty none, keyDir := "/k", licenseDir := "/l" }
    ∃ t, Alone Shared.step (Program.check { supported := true }) s [⟨.auth .clock, 0⟩]
      (.rejected (.keyUnavailable "IO error: No such file or directory (os error 2)")) t ∧
      s.counters = [] ∧ t.counters = [] := by
  intro s
  have hload : License.KeyCache.load s.disk s.keyDir = .error .notFound := by decide +kernel
  have hstatus : statusOf s { supported := true } (Date.ofUnix 0) =
      .rejected (.keyUnavailable "IO error: No such file or directory (os error 2)") := by
    rw [statusOf, hload]
    rfl
  obtain ⟨t, ht⟩ := exists_alone_check s { supported := true } 0
  rw [hstatus] at ht
  refine ⟨t, ht, rfl, ?_⟩
  rw [counters_of_check ht, hload]
  rfl

end Account

end AccountGate
