import AccountGate.Proofs.Account.Merge
import AccountGate.Proofs.Account.Moves

/-!
Why the last check of support sees every write. Checks run one at a time, and each job that changes
what a check looks at makes one afterwards. Main statement: every step of a job leaves it so that the
session agrees with what is stored or a check will see to it, unless the job stores the very user that
it found when it began over another one.
-/

namespace AccountGate.Account

open License (Entitlement)

/-- What a check looks at, and what the session says of support, are as they were. -/
structure SameView (license : Except Error (Option Json)) (s s' : Shared) : Prop where
  user_eq : s'.store.settings.value Key.userId = s.store.settings.value Key.userId
  claim_eq : claimUnder license s'.store.settings = claimUnder license s.store.settings
  key_eq : s'.key? = s.key?
  supported_eq : s'.session.supported = s.session.supported

/-- Why a key is not to be had makes no difference to support. -/
theorem isSupported_check_congr {key key' : Except Disk.Fault String}
    (h : key'.toOption = key.toOption) (claim : Entitlement) (day : Date) :
    (License.KeyCache.check key' claim day).isSupported =
      (License.KeyCache.check key claim day).isSupported := by
  cases key with
  | ok text =>
    obtain rfl : key' = .ok text := by
      cases key' with
      | ok text' => exact congrArg Except.ok (Option.some.inj h)
      | error e => exact absurd h (by simp [Except.toOption])
    rfl
  | error e =>
    cases key' with
    | ok text' => exact absurd h (by simp [Except.toOption])
    | error e' =>
      unfold License.KeyCache.check
      split <;> rfl

namespace Stage

/-- A check under way. -/
def IsChecking : Stage → Prop
  | .checking _ => True
  | _ => False

/-- A check will follow. -/
def Owes : Stage → Prop
  | .looked known found => found.value Key.userId ≠ known
  | .owing => True
  | .claiming => True
  | _ => False

/-- What a check has seen so far is still so. -/
def UpToDate (license : Except Error (Option Json)) (day : Date) (s : Shared) : Stage → Prop
  | .checking (.viewed found) => claimUnder license found = claimUnder license s.store.settings
  | .checking (.claimed claim) => claim = claimUnder license s.store.settings
  | .checking (.dated claim day') => claim = claimUnder license s.store.settings ∧ day' = day
  | .checking (.weighed claim day' key) => claim = claimUnder license s.store.settings ∧
    day' = day ∧ key.toOption = s.key?
  | .checking .judged => s.session.supported = (License.KeyCache.check
    (License.KeyCache.load s.disk s.keyDir) (claimUnder license s.store.settings) day).isSupported
  | _ => True

end Stage

variable {ι : Type} {license : Except Error (Option Json)} {day : Date} {s s' : Shared}
  {stage stage' : Stage} {st : ι → Stage} {i : ι}

theorem SameView.verdict_eq (h : SameView license s s') (day : Date) :
    (License.KeyCache.check (License.KeyCache.load s'.disk s'.keyDir)
      (claimUnder license s'.store.settings) day).isSupported =
    (License.KeyCache.check (License.KeyCache.load s.disk s.keyDir)
      (claimUnder license s.store.settings) day).isSupported := by
  rw [h.claim_eq]
  exact isSupported_check_congr h.key_eq _ _

theorem SameView.upToDate (h : SameView license s s') (hup : stage.UpToDate license day s) :
    stage.UpToDate license day s' := by
  cases stage with
  | checking progress =>
    cases progress with
    | entered => trivial
    | judged => exact h.supported_eq.trans (hup.trans (h.verdict_eq day).symm)
    | _ => simpa only [Stage.UpToDate, h.claim_eq, h.key_eq] using hup
  | _ => trivial

theorem Stage.upToDate_of_not_checking (h : ¬ stage.IsChecking) :
    stage.UpToDate license day s := by
  cases stage with
  | checking progress => exact absurd trivial h
  | _ => trivial

theorem Stage.IsChecking.not_owes (h : stage.IsChecking) : ¬ stage.Owes := by
  cases stage with
  | checking progress => exact id
  | _ => exact h.elim

/-- The session agrees with what is stored, or a check will see to it: a task has one to make, or
will find another user than the one it knows, or all that the check under way has seen is still so. -/
inductive Covered (license : Except Error (Option Json)) (day : Date) (st : ι → Stage) (s : Shared) :
    Prop
  | owed (i : ι) : (st i).Owes → Covered license day st s
  | changed (i : ι) (known : String) : st i = .stored known →
      s.store.settings.value Key.userId ≠ known → Covered license day st s
  | current : (∀ i, (st i).UpToDate license day s) → ((∀ i, ¬ (st i).IsChecking) →
      s.session.supported = (License.KeyCache.check (License.KeyCache.load s.disk s.keyDir)
        (claimUnder license s.store.settings) day).isSupported) → Covered license day st s

/-- Once no task owes anything any more, the session agrees with what is stored. -/
theorem Covered.supported_eq (h : Covered license day st s) (hclosing : ∀ i, st i = .closing) :
    s.session.supported = (License.KeyCache.check (License.KeyCache.load s.disk s.keyDir)
      (claimUnder license s.store.settings) day).isSupported := by
  cases h with
  | owed i hi =>
    rw [hclosing i] at hi
    exact hi.elim
  | changed i known hi _ => exact absurd ((hclosing i).symm.trans hi) (by simp)
  | current _ hsaid =>
    refine hsaid fun i => ?_
    rw [hclosing i]
    exact id

variable [DecidableEq ι]

/-- A task moves on, and nothing that a check looks at changes. -/
theorem Covered.same (h : Covered license day st s) (hview : SameView license s s')
    (howes : (st i).Owes → stage'.Owes)
    (hstored : ∀ known, st i = .stored known → s.store.settings.value Key.userId ≠ known →
      stage'.Owes ∨ stage' = .stored known)
    (hup : (st i).UpToDate license day s → stage'.UpToDate license day s)
    (hchecking : (st i).IsChecking → stage'.IsChecking) :
    Covered license day (Function.update st i stage') s' := by
  cases h with
  | owed j hj =>
    refine .owed j ?_
    by_cases hji : j = i
    · subst hji
      rw [Function.update_self]
      exact howes hj
    · rwa [Function.update_of_ne hji]
  | changed j known hj hne =>
    rw [← hview.user_eq] at hne
    by_cases hji : j = i
    · subst hji
      rcases hstored known hj (hview.user_eq ▸ hne) with how | rfl
      · refine .owed j ?_
        rwa [Function.update_self]
      · exact .changed j known (Function.update_self j _ st) hne
    · exact .changed j known (by rwa [Function.update_of_ne hji]) hne
  | current hall hfree =>
    refine .current (fun j => hview.upToDate ?_) fun hnone => ?_
    · exact (Function.forall_update_iff st fun _ stage => stage.UpToDate license day s).mpr
        ⟨hup (hall i), fun j _ => hall j⟩ j
    · rw [hview.supported_eq, hview.verdict_eq]
      -- If nobody checks now then nobody did before.
      refine hfree fun j hj => hnone j ?_
      by_cases hji : j = i
      · subst hji
        rw [Function.update_self]
        exact hchecking hj
      · rwa [Function.update_of_ne hji]

omit [DecidableEq ι] in
theorem sameView_of_aside (h : Aside s s') : SameView license s s' := by
  rw [h.rest_eq]
  exact ⟨rfl, rfl, rfl, rfl⟩

omit [DecidableEq ι] in
/-- Storing settings leaves what a check looks at, if user and claim stay. -/
theorem sameView_of_merged {changes : Entries} (h : Shared.Merged changes s s')
    (hkey : s'.key? = s.key?)
    (huser : (s.store.settings.merge changes).value Key.userId = s.store.settings.value Key.userId)
    (hrest : ∀ key ∈ [Key.startDate, Key.endDate, Key.sign, Key.supported],
      key ∉ changes.map Prod.fst) : SameView license s s' := by
  refine ⟨?_, ?_, hkey, by rw [h.rest_eq]⟩
  · rw [h.settings_eq, huser]
  · rw [h.settings_eq]
    exact claimUnder_congr huser fun key hkey =>
      Settings.value?_merge_of_notMem (hrest key hkey) s.store.settings

/-- Who makes checks: nobody, or one task, and the shared state says so. -/
def Exclusive (st : ι → Stage) (s : Shared) : Prop :=
  ∃ holder : Option ι, s.checking = holder.isSome ∧ ∀ i, (st i).IsChecking ↔ holder = some i

theorem Exclusive.same (h : Exclusive st s) (hbusy : s'.checking = s.checking)
    (hstage : stage'.IsChecking ↔ (st i).IsChecking) :
    Exclusive (Function.update st i stage') s' := by
  obtain ⟨holder, hholder, hall⟩ := h
  exact ⟨holder, hbusy.trans hholder,
    (Function.forall_update_iff st fun j stage => stage.IsChecking ↔ holder = some j).mpr
      ⟨hstage.trans (hall i), fun j _ => hall j⟩⟩

theorem Exclusive.enter (h : Exclusive st s) (hfree : s.checking = false)
    (hstage : stage'.IsChecking) :
    Exclusive (Function.update st i stage') { s with checking := true } := by
  obtain ⟨holder, hholder, hall⟩ := h
  obtain rfl : holder = none := by simpa [hfree] using hholder
  refine ⟨some i, rfl,
    (Function.forall_update_iff st fun j stage => stage.IsChecking ↔ some i = some j).mpr
      ⟨iff_of_true hstage rfl, fun j hj => ?_⟩⟩
  rw [hall j]
  simp [Ne.symm hj]

theorem Exclusive.leave (h : Exclusive st s) (hi : (st i).IsChecking)
    (hstage : ¬ stage'.IsChecking) :
    Exclusive (Function.update st i stage') { s with checking := false } := by
  obtain ⟨holder, hholder, hall⟩ := h
  obtain rfl : holder = some i := (hall i).mp hi
  refine ⟨none, rfl,
    (Function.forall_update_iff st fun j stage => stage.IsChecking ↔ none = some j).mpr
      ⟨iff_of_false hstage (by simp), fun j hj => ?_⟩⟩
  rw [hall j]
  simp [Ne.symm hj]

omit [DecidableEq ι] in
/-- While a task checks, no other does. -/
theorem Exclusive.upToDate_of_ne (h : Exclusive st s) (hi : (st i).IsChecking) {j : ι} (hj : j ≠ i)
    (s' : Shared) : (st j).UpToDate license day s' := by
  obtain ⟨holder, _, hall⟩ := h
  refine Stage.upToDate_of_not_checking fun hj' => hj ?_
  exact Option.some.inj (((hall j).mp hj').symm.trans ((hall i).mp hi))

omit [DecidableEq ι] in
/-- While nobody checks, all that has been seen is still so. -/
theorem Exclusive.upToDate_of_free (h : Exclusive st s) (hfree : s.checking = false) (j : ι)
    (s' : Shared) : (st j).UpToDate license day s' := by
  obtain ⟨holder, hholder, hall⟩ := h
  obtain rfl : holder = none := by simpa [hfree] using hholder
  exact Stage.upToDate_of_not_checking fun hj => absurd ((hall j).mp hj) (by simp)

/-- A task stores the very user that it found first, over another one. -/
def Reverts (before : Trace interface ι) (s : Shared)
    (e : ι × AccountGate.Event interface) : Prop :=
  ∃ (i : ι) (user : User) (r : Except Error Unit) (first : Settings),
    e = (i, .inner (.apply user.changes) r) ∧ FirstSees i before first ∧
      first.value Key.userId = user.userId ∧ s.store.settings.value Key.userId ≠ user.userId

/-- What every step of the jobs keeps. -/
structure Guarded (license : Except Error (Option Json)) (day : Date) (log : Trace interface ι)
    (st : ι → Stage) (s : Shared) : Prop where
  knows : ∀ i, Knows license i log (st i)
  exclusive : Exclusive st s
  covered : Covered license day st s

variable {log : Trace interface ι} {e : AccountGate.Event interface}

theorem Exclusive.move (h : Exclusive st s) (hm : Move license (st i) s e stage' s') :
    Exclusive (Function.update st i stage') s' := by
  generalize hstage : st i = stage at hm
  cases hm with
  | aside haside _ => exact h.same (by rw [haside.rest_eq]) (by rw [hstage])
  | know _ => exact h.same rfl (by rw [hstage]; exact Iff.rfl)
  | store user hmerged => exact h.same (by rw [hmerged.rest_eq]) (by rw [hstage]; exact Iff.rfl)
  | look _ hfrom =>
    refine h.same rfl ?_
    rcases hfrom with rfl | rfl <;> rw [hstage] <;> exact Iff.rfl
  | tell _ =>
    refine h.same rfl ?_
    rw [hstage, Stage.afterTelling]
    split <;> exact Iff.rfl
  | claim claim hmerged => exact h.same (by rw [hmerged.rest_eq]) (by rw [hstage])
  | key heq => exact h.same (by rw [heq]) (by rw [hstage])
  | enter _ _ hfree => exact h.enter hfree trivial
  | view _ => exact h.same rfl (by rw [hstage]; exact Iff.rfl)
  | read _ => exact h.same rfl (by rw [hstage]; exact Iff.rfl)
  | date _ clock => exact h.same rfl (by rw [hstage]; exact Iff.rfl)
  | load _ _ => exact h.same rfl (by rw [hstage]; exact Iff.rfl)
  | judge _ _ => exact h.same rfl (by rw [hstage]; exact Iff.rfl)
  | leave _ => exact h.leave (by rw [hstage]; trivial) id
  | save properties hmerged => exact h.same (by rw [hmerged.rest_eq]) (by rw [hstage])

omit [DecidableEq ι] in
/-- What a check has seen so far is what it judges by. -/
theorem Progress.Says.verdict_eq {progress : Progress} {supported : Bool}
    (h : progress.Says supported)
    (hup : (Stage.checking progress).UpToDate license day s) :
    supported = (License.KeyCache.check (License.KeyCache.load s.disk s.keyDir)
      (claimUnder license s.store.settings) day).isSupported := by
  cases progress with
  | dated claim day' =>
    obtain ⟨hsupported, rfl⟩ := h
    rw [← hup.1, Program.check_of_unsupported hsupported]
    rfl
  | weighed claim day' key =>
    obtain ⟨rfl, rfl, hkey⟩ := hup
    exact h.trans (isSupported_check_congr hkey _ _)
  | _ => exact h.elim

/-- A job stores a user. Unless that is the one it knows, its check will follow. -/
theorem Covered.store (h : Covered license day st s) {known : String} (hstage : st i = .seeking known)
    {user : User} (hmerged : Shared.Merged user.changes s s')
    (hkey : s'.key? = s.key?)
    (hfair : user.userId = known → s.store.settings.value Key.userId = user.userId) :
    Covered license day (Function.update st i (.stored known)) s' := by
  have hfound : s'.store.settings.value Key.userId = user.userId := by
    rw [hmerged.settings_eq, Settings.value_userId_merge_user]
  by_cases hknown : user.userId = known
  · -- The user that it knows is the one that is stored already.
    have huser := hfair hknown
    have hview : SameView license s s' := by
      refine sameView_of_merged hmerged hkey ?_ (by simp [User.changes, Key.userId, Key.firstName,
        Key.lastName, Key.email, Key.roles, Key.startDate, Key.endDate, Key.sign, Key.supported])
      rw [Settings.value_userId_merge_user, huser]
    refine h.same hview ?_ (fun other hother => ?_) (fun _ => trivial) ?_
    · rw [hstage]
      exact False.elim
    · exact absurd (hstage.symm.trans hother) (by simp)
    · rw [hstage]
      exact False.elim
  · exact .changed i known (Function.update_self i _ st) (by rw [hfound]; exact hknown)

/-- The task that checks moves on. What the others owe, or have found, stays so, and it is the only
one that has seen anything. -/
theorem Covered.check (h : Covered license day st s) (hex : Exclusive st s) (hi : (st i).IsChecking)
    (huser : s'.store.settings.value Key.userId = s.store.settings.value Key.userId)
    (hup : (st i).UpToDate license day s → stage'.UpToDate license day s')
    (hsaid : (st i).UpToDate license day s → ¬ stage'.IsChecking →
      s'.session.supported = (License.KeyCache.check (License.KeyCache.load s'.disk s'.keyDir)
        (claimUnder license s'.store.settings) day).isSupported) :
    Covered license day (Function.update st i stage') s' := by
  cases h with
  | owed j hj =>
    have hji : j ≠ i := fun heq => hi.not_owes (heq ▸ hj)
    exact .owed j (by rwa [Function.update_of_ne hji])
  | changed j known hj hne =>
    have hji : j ≠ i := by
      rintro rfl
      rw [hj] at hi
      exact hi
    exact .changed j known (by rwa [Function.update_of_ne hji]) (huser ▸ hne)
  | current hall _ =>
    refine .current ?_ fun hnone => hsaid (hall i) ?_
    · exact (Function.forall_update_iff st fun _ stage => stage.UpToDate license day s').mpr
        ⟨hup (hall i), fun j hj => hex.upToDate_of_ne hi hj s'⟩
    · have hnot := hnone i
      rwa [Function.update_self] at hnot

/-- Who has judged has seen all that is so; the session says it from then on. -/
theorem Covered.judge (h : Covered license day st s) (hex : Exclusive st s) {progress : Progress}
    (hstage : st i = .checking progress) {supported : Bool} (hjudged : progress.Says supported) :
    Covered license day (Function.update st i (.checking .judged))
      { s with session := { s.session with supported } } := by
  have hi : (st i).IsChecking := by rw [hstage]; trivial
  refine h.check hex hi rfl (fun hup => ?_) fun _ hnot => absurd trivial hnot
  rw [hstage] at hup
  have hverdict := hjudged.verdict_eq hup
  exact hverdict

/-- The last check has seen all that is so. -/
theorem Covered.leave (h : Covered license day st s) (hex : Exclusive st s)
    (hstage : st i = .checking .judged) :
    Covered license day (Function.update st i .closing) { s with checking := false } := by
  have hi : (st i).IsChecking := by rw [hstage]; trivial
  -- What the check has told the session is so still, which is all that is asked once it is over.
  refine h.check hex hi rfl (fun _ => trivial) fun hup _ => ?_
  rw [hstage] at hup
  exact hup

/-- Every move leaves support covered. -/
theorem Covered.move (h : Covered license day st s) (hex : Exclusive st s)
    (hknows : Knows license i log (st i)) (hm : Move license (st i) s e stage' s')
    (hkey : ∀ changes r, e = .inner (.apply changes) r → s'.key? = s.key?)
    (hday : ∀ clock, e = .answered (.auth .clock) clock → Date.ofUnix clock = day)
    (hfair : ¬ Reverts log s (i, e)) : Covered license day (Function.update st i stage') s' := by
  generalize hstage : st i = stage at hm hknows
  have hsame (hview : SameView license s s') (howes : stage.Owes → stage'.Owes)
      (hstored : ∀ known, stage = .stored known → s.store.settings.value Key.userId ≠ known →
        stage'.Owes ∨ stage' = .stored known)
      (hup : stage.UpToDate license day s → stage'.UpToDate license day s)
      (hchecking : stage.IsChecking → stage'.IsChecking) :
      Covered license day (Function.update st i stage') s' := by
    subst hstage
    exact h.same hview howes hstored hup hchecking
  have hrefl : SameView license s s := ⟨rfl, rfl, rfl, rfl⟩
  cases hm with
  | aside haside _ =>
    exact hsame (sameView_of_aside haside) id (fun _ hstored _ => .inr hstored) id id
  | know _ => exact hsame hrefl False.elim (by simp) (fun _ => trivial) False.elim
  | store user hmerged =>
    refine h.store hstage hmerged (hkey _ _ rfl) fun hknown => ?_
    obtain ⟨first, hfirst, hvalue⟩ := hknows
    by_contra hne
    exact hfair ⟨i, user, _, first, rfl, hfirst, hvalue.trans hknown.symm, hne⟩
  | @look _ known _ hfrom =>
    rcases hfrom with rfl | rfl
    · exact hsame hrefl False.elim (by simp) (fun _ => trivial) False.elim
    · refine hsame hrefl False.elim (fun other hother hne => .inl ?_) (fun _ => trivial) False.elim
      obtain rfl := Stage.stored.inj hother
      exact hne
  | @tell known found _ =>
    refine hsame ⟨rfl, rfl, rfl, rfl⟩ (fun howes => ?_) (by simp) (fun _ => ?_) False.elim
    · rw [Stage.afterTelling, if_neg howes]
      trivial
    · rw [Stage.afterTelling]
      split <;> trivial
  -- Whatever has been seen, a check follows upon a new claim and upon a new key.
  | claim claim _ => exact .owed i (by rw [Function.update_self]; trivial)
  | key _ => exact .owed i (by rw [Function.update_self]; trivial)
  | enter _ hfrom hfree =>
    -- A check that begins has seen nothing that could be out of date.
    refine .current ?_ fun hnone => ?_
    · exact (Function.forall_update_iff st fun _ stage => stage.UpToDate license day _).mpr
        ⟨trivial, fun j _ => hex.upToDate_of_free hfree j _⟩
    · refine absurd ?_ (hnone i)
      rw [Function.update_self]
      trivial
  | view _ => exact hsame hrefl False.elim (by simp) (fun _ => rfl) fun _ => trivial
  | @read found _ => exact hsame hrefl False.elim (by simp) id fun _ => trivial
  | date _ clock =>
    exact hsame hrefl False.elim (by simp) (fun hup => ⟨hup, hday clock rfl⟩) fun _ => trivial
  | load _ _ =>
    exact hsame hrefl False.elim (by simp) (fun hup => ⟨hup.1, hup.2, rfl⟩) fun _ => trivial
  | judge _ hjudged => exact h.judge hex hstage hjudged
  | leave _ => exact h.leave hex hstage
  | save properties hmerged =>
    refine hsame (sameView_of_merged hmerged (hkey _ _ rfl) ?_ ?_) id (by simp) id id
    · exact Settings.value_merge_of_notMem (notMem_credentialChanges properties) _
    · simp [Program.credentialChanges, Key.accessToken, Key.updateToken, Key.expiresIn,
        Key.startDate, Key.endDate, Key.sign, Key.supported]

/-- Every move keeps the guard. -/
theorem Guarded.move (h : Guarded license day log st s)
    (hm : Move license (st i) s e stage' s')
    (hkey : ∀ changes r, e = .inner (.apply changes) r → s'.key? = s.key?)
    (hday : ∀ clock, e = .answered (.auth .clock) clock → Date.ofUnix clock = day)
    (hfair : ¬ Reverts log s (i, e)) :
    Guarded license day (log ++ [(i, e)]) (Function.update st i stage') s' where
  knows j := by
    by_cases hj : j = i
    · subst hj
      rw [Function.update_self]
      exact (h.knows j).move hm
    · rw [Function.update_of_ne hj]
      exact (h.knows j).snoc fun other heq => hj (Prod.mk.inj heq).1.symm
  exclusive := h.exclusive.move hm
  covered := h.covered.move h.exclusive (h.knows i) hm hkey hday hfair

/-- A run on one day and with one license, in which every write of settings succeeds and spares the
key, and no job reverts another. -/
structure Fair (license : Except Error (Option Json)) (day : Date) (before : Trace interface ι)
    (s : Shared) (e : ι × AccountGate.Event interface) : Prop where
  steady : ∀ x, e.2.reply? = some x → Steady license day x.call x.reply
  stores : ∀ changes stored, e.2 = .inner (.apply changes) stored → stored = .ok () ∧
    (License.KeyCache.load (s.store.apply s.disk changes).2.2 s.keyDir).toOption = s.key?
  keeps : ¬ Reverts before s e

omit [DecidableEq ι] in
theorem Fair.served {c : Call} {r : Reply c} (h : Fair license day log s (i, .inner c r)) :
    Served license c r := by
  cases c with
  | license => exact h.steady _ rfl
  | apply changes => exact (h.stores changes r rfl).1
  | _ => trivial

omit [DecidableEq ι] in
/-- What stores settings leaves the key as it is. -/
theorem Fair.key?_eq {c : Call} {r : Reply c} (h : Fair license day log s (i, .inner c r))
    (hs : s.step c = .reply r s') {changes : Entries} {stored : Except Error Unit}
    (he : (.inner c r : AccountGate.Event interface) = .inner (.apply changes) stored) :
    s'.key? = s.key? := by
  cases he
  obtain ⟨-, rfl⟩ := Outcome.reply.inj hs
  exact (h.stores changes stored rfl).2

theorem keeps_guarded (license : Except Error (Option Json)) (day : Date) :
    course.Keeps Shared.step (Fair license day) (Guarded (ι := ι) license day) where
  inner h hallow hs hfair :=
    ⟨trivial, h.move (move_of_inner hallow hs hfair.served) (fun _ _ heq => hfair.key?_eq hs heq)
      (fun clock heq => by cases heq) hfair.keeps⟩
  asked h _ _ := {
    knows := fun j => (h.knows j).snoc fun other heq => by cases heq
    exclusive := h.exclusive
    covered := h.covered }
  answered h hallow houtside hfair :=
    ⟨trivial, h.move (move_of_answered hallow houtside _) (fun _ _ heq => by cases heq)
      (fun clock heq => by cases heq; exact hfair.steady _ rfl) hfair.keeps⟩

/-- A settled store takes every change, and the key is spared. -/
theorem Shared.Settled.stores_apply (h : s.Settled) {changes : Entries} {stored : Except Error Unit}
    (hs : s.step (.apply changes) = .reply stored s') : stored = .ok () ∧
      (License.KeyCache.load (s.store.apply s.disk changes).2.2 s.keyDir).toOption = s.key? := by
  obtain ⟨hok, hstores⟩ := h.stores hs
  obtain ⟨-, rfl⟩ := Outcome.reply.inj hs
  exact ⟨hok, congrArg Except.toOption (hstores.twins.load_eq s.keyDir)⟩

theorem Shared.settled_of_reaches {α : Type} {w₀ w : World interface Shared ι α}
    (h₀ : w₀.state.Settled) (h : World.Reaches Shared.step w₀ log w) : w.state.Settled :=
  h.invariant Shared.Settled h₀ fun hsettled hs => hsettled.step hs

end AccountGate.Account
