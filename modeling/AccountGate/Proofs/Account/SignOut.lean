import AccountGate.Proofs.Account.Parting
import AccountGate.Proofs.Account.Solo

/-!
Signing out while refreshes run. Main statement: once all have finished, nobody is signed in and
nothing is left of the account, unless a refresh did one of a few things late: it stored a user or
tokens after they had been cleared, or told the session of what it had read before.
-/

namespace AccountGate.Account

variable {ι : Type} {s s' : Shared} {log : Trace interface (Option ι)}

/-- Jobs, any number of them, and a sign-out. -/
def signingOut (cfg : Config) (jobs : ι → Job) (s : Shared) :
    World interface Shared (Option ι) Unit where
  state := s
  task
    | none => .running (Program.signOut cfg)
    | some i => .running (Program.ofJob cfg (jobs i))

/-- The sign-out clears the stored account. -/
def clearing : Option ι × AccountGate.Event interface :=
  (none, .inner (.apply Program.clearedEntries) (.ok ()))

/-- The sign-out empties the session. -/
def emptying : Option ι × AccountGate.Event interface := (none, .inner (.setSession {}) ())

/-- A job stores a user after the stored account has been cleared. -/
def StoresUserLate (log : Trace interface (Option ι)) : Prop :=
  ∃ front i user r rest, log = front ++ (some i, .inner (.apply (User.changes user)) r) :: rest ∧
    clearing ∈ front ∧ user.userId ≠ ""

/-- A job stores tokens after the stored account has been cleared. -/
def StoresTokensLate (log : Trace interface (Option ι)) : Prop :=
  ∃ front i properties r rest, log = front ++
    (some i, .inner (.apply (Program.credentialChanges properties)) r) :: rest ∧ clearing ∈ front

/-- A job does something after the session has been emptied, and the settings that it read last are
those from before the stored account was cleared. -/
def Straddles (i : ι) (found : Settings) (e : AccountGate.Event interface)
    (log : Trace interface (Option ι)) : Prop :=
  ∃ front mid rest, log = front ++ (some i, .inner .settings found) :: (mid ++ (some i, e) :: rest) ∧
    clearing ∈ mid ∧ emptying ∈ mid ∧ ∀ other, (some i, .inner .settings other) ∉ mid

def TellsLate (log : Trace interface (Option ι)) : Prop :=
  ∃ i found, Straddles i found (.inner (.setUser (userOf found).1 (userOf found).2) ()) log ∧
    found.value Key.userId ≠ ""

def JudgesLate (log : Trace interface (Option ι)) : Prop :=
  ∃ i found, Straddles i found (.inner (.setSupported true) ()) log

/-- A job has read a claim that holds for nobody in particular. -/
def SupportsNobody (log : Trace interface (Option ι)) : Prop :=
  ∃ i found key day, (some i, .inner .settings found) ∈ log ∧ found.value Key.userId = "" ∧
    (License.KeyCache.check key (SupportClaim.ofSettings found) day).isSupported = true

section Monotone

variable (e : Option ι × AccountGate.Event interface)

theorem StoresUserLate.snoc (h : StoresUserLate log) : StoresUserLate (log ++ [e]) := by
  obtain ⟨front, i, user, r, rest, rfl, hrest⟩ := h
  exact ⟨front, i, user, r, rest ++ [e], by simp, hrest⟩

theorem StoresTokensLate.snoc (h : StoresTokensLate log) : StoresTokensLate (log ++ [e]) := by
  obtain ⟨front, i, properties, r, rest, rfl, hfront⟩ := h
  exact ⟨front, i, properties, r, rest ++ [e], by simp, hfront⟩

theorem Straddles.snoc {i : ι} {found : Settings} {e' : AccountGate.Event interface}
    (h : Straddles i found e' log) : Straddles i found e' (log ++ [e]) := by
  obtain ⟨front, mid, rest, rfl, hmid⟩ := h
  exact ⟨front, mid, rest ++ [e], by simp, hmid⟩

theorem TellsLate.snoc (h : TellsLate log) : TellsLate (log ++ [e]) := by
  obtain ⟨i, found, hstraddles, huser⟩ := h
  exact ⟨i, found, hstraddles.snoc e, huser⟩

theorem JudgesLate.snoc (h : JudgesLate log) : JudgesLate (log ++ [e]) := by
  obtain ⟨i, found, hstraddles⟩ := h
  exact ⟨i, found, hstraddles.snoc e⟩

theorem SupportsNobody.snoc (h : SupportsNobody log) : SupportsNobody (log ++ [e]) := by
  obtain ⟨i, found, key, day, hmem, hrest⟩ := h
  exact ⟨i, found, key, day, List.mem_append_left _ hmem, hrest⟩

/-- An event of a longer trace is the last one or one of the shorter trace. -/
theorem split_snoc {front rest : Trace interface (Option ι)}
    {e e' : Option ι × AccountGate.Event interface} (h : log ++ [e] = front ++ e' :: rest) :
    (front = log ∧ e' = e) ∨ ∃ rest', log = front ++ e' :: rest' := by
  rcases List.eq_nil_or_concat rest with rfl | ⟨rest', last, rfl⟩
  · obtain ⟨hlog, he⟩ := List.append_inj' h rfl
    exact .inl ⟨hlog.symm, (List.cons.inj he).1.symm⟩
  · right
    have h' : log ++ [e] = (front ++ e' :: rest') ++ [last] := by simpa using h
    exact ⟨rest', (List.append_inj' h' rfl).1⟩

end Monotone

/-- The session is emptied only after the stored account has been cleared. -/
def ClearsFirst (log : Trace interface (Option ι)) : Prop :=
  ∀ front rest, log = front ++ emptying :: rest → clearing ∈ front

/-- What is read after the stored account has been cleared names nobody. -/
def SeesNobody (log : Trace interface (Option ι)) : Prop :=
  ∀ front i found rest, log = front ++ (some i, .inner .settings found) :: rest →
    clearing ∈ front → found.value Key.userId = "" ∨ StoresUserLate log

/-- What the stored account and the session come to, each as long as nothing was late. -/
structure Forgotten (log : Trace interface (Option ι)) (s : Shared) : Prop where
  user : clearing ∈ log → s.store.settings.value Key.userId = "" ∨ StoresUserLate log
  tokens : clearing ∈ log → (∀ key ∈ [Key.accessToken, Key.updateToken],
    s.store.settings.value key = "") ∨ StoresTokensLate log
  session : emptying ∈ log → (s.session.authorized = false ∧ s.session.user = {}) ∨
    StoresUserLate log ∨ TellsLate log
  support : emptying ∈ log → s.session.supported = false ∨ StoresUserLate log ∨ JudgesLate log ∨
    SupportsNobody log

/-- What every step of the jobs and of the sign-out keeps. -/
structure Departing (log : Trace interface (Option ι)) (st : Option ι → Stage ⊕ Parting)
    (s : Shared) : Prop where
  job : ∀ i, ∃ stage, st (some i) = .inl stage ∧ Knows (.ok none) (some i) log stage
  phase : ∃ phase, st none = .inr phase ∧ (phase ≠ .leaving → clearing ∈ log) ∧
    (phase = .parted → emptying ∈ log)
  clearsFirst : ClearsFirst log
  seesNobody : SeesNobody log
  forgotten : Forgotten log s

variable {e : Option ι × AccountGate.Event interface}

theorem ClearsFirst.snoc (h : ClearsFirst log) (he : e = emptying → clearing ∈ log) :
    ClearsFirst (log ++ [e]) := by
  intro front rest hlog
  rcases split_snoc hlog with ⟨rfl, heq⟩ | ⟨rest', hlog⟩
  · exact he heq.symm
  · exact h front rest' hlog

theorem SeesNobody.snoc (h : SeesNobody log) (he : ∀ i found,
    e = (some i, .inner .settings found) → clearing ∈ log →
      found.value Key.userId = "" ∨ StoresUserLate log) : SeesNobody (log ++ [e]) := by
  intro front i found rest hlog hfront
  rcases split_snoc hlog with ⟨rfl, heq⟩ | ⟨rest', hlog⟩
  · exact (he i found heq.symm hfront).imp_right (·.snoc e)
  · exact (h front i found rest' hlog hfront).imp_right (·.snoc e)

theorem mem_of_mem_snoc {e' : Option ι × AccountGate.Event interface} (h : e' ∈ log ++ [e])
    (hne : e ≠ e') : e' ∈ log :=
  (List.mem_append.mp h).resolve_right fun hmem => hne (List.mem_singleton.mp hmem).symm

/-- What happens without a change of settings and session, and is no part of a sign-out. -/
theorem Forgotten.quiet (h : Forgotten log s) (hstore : s'.store = s.store)
    (hsession : s'.session = s.session) (hclearing : e ≠ clearing) (hemptying : e ≠ emptying) :
    Forgotten (log ++ [e]) s' := by
  constructor
  · intro hmem
    rw [hstore]
    exact (h.user (mem_of_mem_snoc hmem hclearing)).imp_right (·.snoc e)
  · intro hmem
    rw [hstore]
    exact (h.tokens (mem_of_mem_snoc hmem hclearing)).imp_right (·.snoc e)
  · intro hmem
    rw [hsession]
    exact (h.session (mem_of_mem_snoc hmem hemptying)).imp_right
      (Or.imp (·.snoc e) (·.snoc e))
  · intro hmem
    rw [hsession]
    exact (h.support (mem_of_mem_snoc hmem hemptying)).imp_right
      (Or.imp (·.snoc e) (Or.imp (·.snoc e) (·.snoc e)))

/-- Whoever acts on the settings that it has read last has read them after they were cleared, or
acts late. -/
theorem cleared_or_straddles (hfirst : ClearsFirst log) (hempty : emptying ∈ log) {i : ι}
    {front : Trace interface (Option ι)} {found : Settings}
    (hlast : LastSees (some i) front log found) :
    clearing ∈ front ∨ ∀ e, Straddles i found e (log ++ [(some i, e)]) := by
  obtain ⟨rest, rfl, hrest⟩ := hlast
  by_cases hfront : clearing ∈ front
  · exact .inl hfront
  · right
    obtain ⟨before, after, hlog⟩ := List.append_of_mem hempty
    have hclear : clearing ∈ front ++ (some i, .inner .settings found) :: rest := by
      rw [hlog]
      exact List.mem_append_left _ (hfirst before after hlog)
    have hne {e : AccountGate.Event interface} {e' : AccountGate.Event interface} :
        ((none, e) : Option ι × AccountGate.Event interface) ≠ (some i, e') := by simp
    have hback {e : AccountGate.Event interface}
        (h : (none, e) ∈ front ++ (some i, .inner .settings found) :: rest)
        (hnot : (none, e) ∉ front) : (none, e) ∈ rest :=
      (List.mem_cons.mp ((List.mem_append.mp h).resolve_left hnot)).resolve_left hne
    have hempty' : emptying ∉ front := by
      intro hmem
      obtain ⟨before, after, rfl⟩ := List.append_of_mem hmem
      exact hfront (List.mem_append_left _ (hfirst before _ (List.append_assoc _ _ _)))
    exact fun e => ⟨front, rest, [], by simp, hback hclear hfront, hback hempty hempty', hrest⟩

/-- After the session was emptied, such settings name nobody, unless somebody has been late. -/
theorem nobody_or_late (hfirst : ClearsFirst log) (hsees : SeesNobody log) (hempty : emptying ∈ log)
    {i : ι} {front : Trace interface (Option ι)} {found : Settings}
    (hlast : LastSees (some i) front log found) :
    found.value Key.userId = "" ∨ StoresUserLate log ∨
      ∀ e, Straddles i found e (log ++ [(some i, e)]) := by
  rcases cleared_or_straddles hfirst hempty hlast with hfront | hstraddles
  · obtain ⟨rest, hlog, -⟩ := hlast
    exact (hsees front i found rest hlog hfront).imp_right .inl
  · exact .inr (.inr hstraddles)

theorem userOf_of_value_eq {found : Settings} (h : found.value Key.userId = "") :
    userOf found = (false, {}) := by
  have hnone : found.value? Key.userId = none := by
    cases hvalue : found.value? Key.userId with
    | none => rfl
    | some text =>
      rw [Settings.value, hvalue] at h
      have hfilled := Option.filter_eq_some_iff.mp hvalue
      rw [show text = "" from h] at hfilled
      exact absurd hfilled.2 (by decide)
  rw [userOf, hnone]
  rfl

section Steps

variable [DecidableEq ι] {st : Option ι → Stage ⊕ Parting} {i : ι} {stage stage' : Stage}
  {phase phase' : Parting} {event : AccountGate.Event interface}

omit [DecidableEq ι] in
/-- What a move of a job leaves of the stored account and of the session. -/
theorem Forgotten.move (h : Forgotten log s) (hfirst : ClearsFirst log) (hsees : SeesNobody log)
    (hknows : Knows (.ok none) (some i) log stage)
    (hm : Move (.ok none) stage s event stage' s') :
    Forgotten (log ++ [(some i, event)]) s' := by
  have hmem {e : AccountGate.Event interface} (hmem : (none, e) ∈ log ++ [(some i, event)]) :
      (none, e) ∈ log := mem_of_mem_snoc hmem (by simp)
  constructor
  · intro hnow
    have hclear : clearing ∈ log := hmem hnow
    rcases hm.userId_eq with heq | ⟨user, r, rfl, heq⟩
    · rw [heq]
      exact (h.user hclear).imp_right (·.snoc _)
    · rw [heq]
      by_cases huser : user.userId = ""
      · exact .inl huser
      · exact .inr ⟨log, i, user, r, [], rfl, hclear, huser⟩
  · intro hnow
    have hclear : clearing ∈ log := hmem hnow
    rcases hm.tokens_eq with heq | ⟨properties, r, rfl⟩
    · refine (h.tokens hclear).imp (fun hempty key hkey => ?_) (·.snoc _)
      rw [heq key hkey]
      exact hempty key hkey
    · exact .inr ⟨log, i, properties, r, [], rfl, hclear⟩
  · intro hnow
    have hempty : emptying ∈ log := hmem hnow
    have hbefore := (h.session hempty).imp_right
      (Or.imp (·.snoc (some i, event)) (·.snoc (some i, event)))
    rcases hm.session_eq with heq | ⟨known, found, rfl, rfl, heq⟩ |
      ⟨progress, supported, -, -, -, heq⟩
    · rwa [heq]
    · rw [heq]
      obtain ⟨front, hlast⟩ := hknows
      by_cases huser : found.value Key.userId = ""
      · rw [userOf_of_value_eq huser]
        exact .inl ⟨rfl, rfl⟩
      · rcases nobody_or_late hfirst hsees hempty hlast with hnobody | hlate | hstraddles
        · exact absurd hnobody huser
        · exact .inr (.inl (hlate.snoc _))
        · exact .inr (.inr ⟨i, found, hstraddles _, huser⟩)
    · rwa [heq]
  · intro hnow
    have hempty : emptying ∈ log := hmem hnow
    have hbefore := (h.support hempty).imp_right (Or.imp (·.snoc (some i, event))
      (Or.imp (·.snoc (some i, event)) (·.snoc (some i, event))))
    rcases hm.session_eq with heq | ⟨known, found, rfl, rfl, heq⟩ |
      ⟨progress, supported, rfl, hjudged, rfl, heq⟩
    · rwa [heq]
    · rwa [heq]
    · rw [heq]
      cases supported with
      | false => exact .inl rfl
      | true =>
        right
        cases progress with
        | weighed claim day key =>
          obtain ⟨front, found, hlast, rfl⟩ := hknows
          rcases nobody_or_late hfirst hsees hempty hlast with hnobody | hlate | hstraddles
          · exact .inr (.inr ⟨i, found, key, day, List.mem_append_left _ hlast.mem, hnobody,
              hjudged.symm⟩)
          · exact .inl (hlate.snoc _)
          · exact .inr (.inl ⟨i, found, hstraddles _⟩)
        | dated claim day => exact absurd hjudged.2 (by decide)
        | _ => exact hjudged.elim

omit [DecidableEq ι] in
/-- What a step of signing out leaves of the stored account and of the session. -/
theorem Forgotten.parts (h : Forgotten log s) (hp : Parts phase s event phase' s') :
    Forgotten (log ++ [(none, event)]) s' := by
  cases hp with
  | clear hmerged =>
    have hsession : s'.session = s.session := by rw [hmerged.rest_eq]
    have hmem : emptying ∈ log ++ [clearing] → emptying ∈ log := (mem_of_mem_snoc · (by simp
      [clearing, emptying]))
    constructor
    · intro _
      rw [hmerged.settings_eq]
      exact .inl (Settings.value_merge_cleared (by simp) _)
    · intro _
      refine .inl fun key hkey => ?_
      rw [hmerged.settings_eq]
      exact Settings.value_merge_cleared (List.mem_cons_of_mem _ hkey) _
    · intro hempty
      rw [hsession]
      exact (h.session (hmem hempty)).imp_right (Or.imp (·.snoc _) (·.snoc _))
    · intro hempty
      rw [hsession]
      exact (h.support (hmem hempty)).imp_right
        (Or.imp (·.snoc _) (Or.imp (·.snoc _) (·.snoc _)))
  | aside haside hchanges hsession =>
    refine h.quiet (by rw [haside.rest_eq]) (by rw [haside.rest_eq]) ?_ ?_
    · exact fun heq => hchanges _ _ (Prod.mk.inj heq).2
    · exact fun heq => hsession _ _ (Prod.mk.inj heq).2
  | reset _ =>
    have hmem : clearing ∈ log ++ [emptying] → clearing ∈ log := (mem_of_mem_snoc · (by simp
      [clearing, emptying]))
    constructor
    · exact fun hclear => (h.user (hmem hclear)).imp_right (·.snoc _)
    · exact fun hclear => (h.tokens (hmem hclear)).imp_right (·.snoc _)
    · exact fun _ => .inl ⟨rfl, rfl⟩
    · exact fun _ => .inl rfl

theorem Departing.jobMove (h : Departing log st s) (hstage : st (some i) = .inl stage)
    (hm : Move (.ok none) stage s event stage' s') : Departing (log ++ [(some i, event)])
      (Function.update st (some i) (.inl stage')) s' := by
  obtain ⟨stage₀, hstage₀, hknows⟩ := h.job i
  obtain rfl := Sum.inl.inj (hstage.symm.trans hstage₀)
  refine ⟨fun j => ?_, ?_, ?_, ?_,
    h.forgotten.move h.clearsFirst h.seesNobody hknows hm⟩
  · by_cases hj : j = i
    · subst hj
      exact ⟨stage', Function.update_self _ _ _, hknows.move hm⟩
    · obtain ⟨stage, hother, hknows⟩ := h.job j
      refine ⟨stage, ?_, hknows.snoc fun other heq => ?_⟩
      · rwa [Function.update_of_ne (by simpa using hj)]
      · exact hj (Option.some.inj (Prod.mk.inj heq).1).symm
  · obtain ⟨phase, hphase, hclear, hempty⟩ := h.phase
    refine ⟨phase, ?_, fun hne => ?_, fun heq => ?_⟩
    · rwa [Function.update_of_ne (by simp)]
    · exact List.mem_append_left _ (hclear hne)
    · exact List.mem_append_left _ (hempty heq)
  · exact h.clearsFirst.snoc fun heq => absurd heq (by simp [emptying])
  · refine h.seesNobody.snoc fun j found heq hclear => ?_
    rw [hm.found_eq (Prod.mk.inj heq).2]
    exact h.forgotten.user hclear

theorem Departing.parts (h : Departing log st s) (hphase : st none = .inr phase)
    (hp : Parts phase s event phase' s') :
    Departing (log ++ [(none, event)]) (Function.update st none (.inr phase')) s' := by
  obtain ⟨phase₀, hphase₀, hclear, hempty⟩ := h.phase
  obtain rfl := Sum.inr.inj (hphase.symm.trans hphase₀)
  refine ⟨fun j => ?_, ⟨phase', Function.update_self _ _ _, ?_, ?_⟩, ?_, ?_,
    h.forgotten.parts hp⟩
  · obtain ⟨stage, hstage, hknows⟩ := h.job j
    refine ⟨stage, ?_, hknows.snoc fun other heq => by simp at heq⟩
    rwa [Function.update_of_ne (by simp)]
  · intro hne
    cases hp with
    | clear _ => exact List.mem_append_right _ (List.mem_singleton_self _)
    | aside _ _ _ => exact List.mem_append_left _ (hclear hne)
    | reset _ => exact List.mem_append_left _ (hclear (by decide))
  · intro heq
    cases hp with
    | clear _ => exact absurd heq (by decide)
    | aside _ _ _ => exact List.mem_append_left _ (hempty heq)
    | reset _ => exact List.mem_append_right _ (List.mem_singleton_self _)
  · refine h.clearsFirst.snoc fun heq => ?_
    cases hp with
    | clear _ => exact absurd heq (by simp [emptying])
    | aside _ _ hsession => exact absurd (Prod.mk.inj heq).2 (hsession _ _)
    | reset _ => exact hclear (by decide)
  · exact h.seesNobody.snoc fun j found heq => absurd heq (by simp)

omit [DecidableEq ι] in
/-- A call that is put outside changes nothing. -/
theorem Departing.asked (h : Departing log st s) {j : Option ι} {c : Call} :
    Departing (log ++ [(j, .asked c)]) st s where
  job i := (h.job i).imp fun _ hi => ⟨hi.1, hi.2.snoc fun other heq => by simp at heq⟩
  phase := h.phase.imp fun _ hphase =>
    ⟨hphase.1, (List.mem_append_left _ <| hphase.2.1 ·), (List.mem_append_left _ <| hphase.2.2 ·)⟩
  clearsFirst := h.clearsFirst.snoc fun heq => by simp [emptying] at heq
  seesNobody := h.seesNobody.snoc fun i found heq => by simp at heq
  forgotten := h.forgotten.quiet rfl rfl (by simp [clearing]) (by simp [emptying])

/-- No license is installed, and settings can be stored. -/
def Unlicensed (_ : Trace interface (Option ι)) (_ : Shared)
    (e : Option ι × AccountGate.Event interface) : Prop :=
  ∀ x, e.2.reply? = some x → Served (.ok none) x.call x.reply

theorem keeps_departing :
    (course.sum parting).Keeps Shared.step Unlicensed (Departing (ι := ι)) where
  inner {log st s j c r s'} h hallow hs hserved := by
    refine ⟨?_, ?_⟩
    · cases st j <;> trivial
    cases j with
    | none =>
      obtain ⟨phase, hphase, -⟩ := h.phase
      rw [hphase] at hallow ⊢
      exact h.parts hphase (parts_of_inner hallow hs (hserved _ rfl))
    | some i =>
      obtain ⟨stage, hstage, -⟩ := h.job i
      rw [hstage] at hallow ⊢
      exact h.jobMove hstage (move_of_inner hallow hs (hserved _ rfl))
  asked h _ _ := h.asked
  answered {log st s j c r} h hallow houtside _ := by
    refine ⟨?_, ?_⟩
    · cases st j <;> trivial
    cases j with
    | none =>
      obtain ⟨phase, hphase, -⟩ := h.phase
      rw [hphase] at hallow ⊢
      exact h.parts hphase (parts_of_answered hallow houtside s)
    | some i =>
      obtain ⟨stage, hstage, -⟩ := h.job i
      rw [hstage] at hallow ⊢
      exact h.jobMove hstage (move_of_answered hallow houtside s)

end Steps

variable [DecidableEq ι] {cfg : Config} {jobs : ι → Job} {w : World interface Shared (Option ι) Unit}

/-- Once a sign-out and all jobs beside it have finished, no user and no tokens are stored, nobody
is signed in, and nothing is supported; each of these unless a job did something late. -/
theorem signed_out_unless_late (h : World.Reaches Shared.step (signingOut cfg jobs s) log w)
    (hserved : ∀ e ∈ log, ∀ x, e.2.reply? = some x → Served (.ok none) x.call x.reply)
    (hdone : ∀ i, w.task i = .running (.done ())) :
    (w.state.store.settings.value Key.userId = "" ∨ StoresUserLate log) ∧
    ((∀ key ∈ [Key.accessToken, Key.updateToken], w.state.store.settings.value key = "") ∨
      StoresTokensLate log) ∧
    ((w.state.session.authorized = false ∧ w.state.session.user = {}) ∨
      StoresUserLate log ∨ TellsLate log) ∧
    (w.state.session.supported = false ∨
      StoresUserLate log ∨ JudgesLate log ∨ SupportsNobody log) := by
  let start : Option ι → Stage ⊕ Parting
    | none => .inr .leaving
    | some i => .inl (jobs i).stage
  have h₀ : Departing [] start (signingOut cfg jobs s).state := by
    refine ⟨fun i => ⟨_, rfl, ?_⟩, ⟨_, rfl, by simp, by simp⟩, ?_, ?_, ?_⟩
    · cases jobs i with
      | refreshUser => exact fun _ => List.not_mem_nil
      | refreshSupport => trivial
    · exact fun front rest hlog => absurd hlog (by simp)
    · exact fun front i found rest hlog => absurd hlog (by simp)
    · constructor <;> exact fun hmem => absurd hmem List.not_mem_nil
  have hlead (i : Option ι) : (course.sum parting).Leads
      (fun _ s => i = none → s = .inr .parted) (start i) (match i with
        | none => Program.signOut cfg
        | some i => Program.ofJob cfg (jobs i)) := by
    cases i with
    | none =>
      refine (Program.leads_signOut cfg).inr.mono ?_
      rintro _ _ ⟨s, rfl, rfl⟩ _
      rfl
    | some i => exact (Program.leads_ofJob cfg (jobs i)).inl.mono fun _ _ _ heq => absurd heq (by simp)
  have hfair : Conduct.FairRun Shared.step Unlicensed (signingOut cfg jobs s) log := by
    rintro before e after w₁ w₂ rfl _ _
    exact hserved e (by simp)
  obtain ⟨st, hdeparting, hleads⟩ :=
    keeps_departing.of_reaches h₀ (fun i => by cases i <;> rfl) hlead h hfair
  have hparted : st none = .inr .parted := by
    have hlast := hleads none
    rw [hdone none] at hlast
    exact hlast rfl
  obtain ⟨phase, hphase, hclear, hempty⟩ := hdeparting.phase
  obtain rfl : Parting.parted = phase := Sum.inr.inj (hparted.symm.trans hphase)
  have hcleared := hclear (by decide)
  have hemptied := hempty rfl
  have hforgotten := hdeparting.forgotten
  exact ⟨hforgotten.user hcleared, hforgotten.tokens hcleared, hforgotten.session hemptied,
    hforgotten.support hemptied⟩

section Return

open Program (Bare Scripted)

/-- A job that has begun before somebody signs out finds the user, and stores it afterwards. -/
theorem reaches_return (cfg : Config) (now : Int) (answer : Answer) {record : Json}
    (hbare : Bare s) (hrecord : jsonOutcome (cfg.resource "user_info") answer = .ok record)
    (hknown : (User.ofRecord record).userId = s.store.settings.value Key.userId) :
    ∃ log w, World.Reaches Shared.step (signingOut cfg (fun _ : Unit => .refreshUser) s) log w ∧
      World.RepliesAre (Served (.ok none)) log ∧ (∀ i, w.task i = .running (.done ())) ∧
      w.state = Program.told (Program.signedOut s) (User.ofRecord record) := by
  have hjob : (signingOut cfg (fun _ : Unit => .refreshUser) s).task (some ()) =
      .running ((Program.look cfg).bind fun found => Program.seek cfg found.1 found.2) :=
    congrArg Task.running (Program.refreshUser_eq_look cfg)
  have hlook : Flow.Solo Shared.step (Scripted now fun _ => answer) (Program.look cfg) s
      (s.store.settings.value Key.userId, (none, none)) s := Program.solo_look hbare cfg
  obtain ⟨log₁, h₁, hreplies₁⟩ := World.reaches_of_solo hlook (by rfl) hjob
  generalize hw₁ : (signingOut cfg (fun _ : Unit => .refreshUser) s).set (some ()) s
    (.running (Program.seek cfg (s.store.settings.value Key.userId) (none, none))) = w₁ at h₁
  have hstate₁ : w₁.state = s := by rw [← hw₁]; rfl
  have hjob₁ : w₁.task (some ()) = .running
      (Program.seek cfg (s.store.settings.value Key.userId) (none, none)) := by
    rw [← hw₁, World.set_task_self]
  have hleave₁ : w₁.task none = .running ((Program.logout cfg).bind fun _ => .done ()) := by
    rw [← hw₁, World.set_task_of_ne _ (by decide)]
    rfl
  -- Somebody signs out while the job waits for the answer.
  have hleave : Flow.Solo Shared.step (Scripted now fun _ => answer) (Program.logout cfg) s (.ok ())
      (Program.signedOut s) := Program.solo_logout hbare cfg
  obtain ⟨log₂, h₂, hreplies₂⟩ := World.reaches_of_solo hleave hstate₁ hleave₁
  have hjob₂ : (w₁.set none (Program.signedOut s) (.running (.done ()))).task (some ()) = .running
      ((Program.seek cfg (User.ofRecord record).userId (none, none)).bind .done) := by
    rw [World.set_task_of_ne _ (by decide), hjob₁, hknown, Flow.bind_done]
  have hback : Flow.Solo Shared.step (Scripted now fun _ => answer)
      (Program.seek cfg (User.ofRecord record).userId (none, none)) _ () _ :=
    Program.solo_seek_same hbare.signedOut hrecord
  obtain ⟨log₃, h₃, hreplies₃⟩ := World.reaches_of_solo hback (by rfl) hjob₂
  refine ⟨_, _, h₁.trans (h₂.trans h₃), ?_, ?_, rfl⟩
  · refine .append ?_ (.append ?_ ?_)
    · exact fun e he x hx => (hreplies₁ e he x hx).served
    · exact fun e he x hx => (hreplies₂ e he x hx).served
    · exact fun e he x hx => (hreplies₃ e he x hx).served
  · intro i
    cases i with
    | some i => exact World.set_task_self _ _ _ _
    | none => rw [World.set_task_of_ne _ (by decide), World.set_task_self]

theorem exists_return_sample : ∃ log w,
    World.Reaches Shared.step (signingOut sampleConfig (fun _ : Unit => .refreshUser) sample) log w ∧
    World.RepliesAre (Served (.ok none)) log ∧ (∀ i, w.task i = .running (.done ())) ∧
    w.state.session.authorized = true ∧ w.state.store.settings.value Key.userId = "u1" := by
  have hstored : sample.store.settings.value Key.userId = "u1" :=
    congrArg License.Entitlement.userId ofSettings_sample
  have hrecord : (User.ofRecord (sampleRecord "u1")).userId = "u1" := rfl
  obtain ⟨log, w, hreach, hreplies, hdone, hstate⟩ := reaches_return sampleConfig noon _ bare_sample
    (jsonOutcome_of_parse parse?_record.1 _) (hrecord.trans hstored.symm)
  have huser : w.state.store.settings.value Key.userId = "u1" := by
    rw [hstate, ← hrecord]
    exact Settings.value_userId_merge_user _ _
  refine ⟨log, w, hreach, hreplies, hdone, ?_, huser⟩
  have hauthorized : w.state.session.authorized = (userOf w.state.store.settings).1 := by
    rw [hstate]
    rfl
  rw [hauthorized, userOf]
  cases hvalue : w.state.store.settings.value? Key.userId with
  | some _ => rfl
  | none =>
    rw [Settings.value, hvalue] at huser
    exact absurd huser (by decide)

end Return

/-- What holds of every sign-out holds of this one. -/
theorem signed_out_unless_late_sample : ∃ log w,
    World.Reaches Shared.step (signingOut sampleConfig (fun _ : Unit => .refreshUser) sample) log w ∧
    (∀ e ∈ log, ∀ x, e.2.reply? = some x → Served (.ok none) x.call x.reply) ∧
    (∀ i, w.task i = .running (.done ())) ∧
    (w.state.store.settings.value Key.userId = "" ∨ StoresUserLate log) ∧
    ((∀ key ∈ [Key.accessToken, Key.updateToken], w.state.store.settings.value key = "") ∨
      StoresTokensLate log) ∧
    ((w.state.session.authorized = false ∧ w.state.session.user = {}) ∨
      StoresUserLate log ∨ TellsLate log) ∧
    (w.state.session.supported = false ∨
      StoresUserLate log ∨ JudgesLate log ∨ SupportsNobody log) := by
  obtain ⟨log, w, hreach, hreplies, hdone, -⟩ := exists_return_sample
  exact ⟨log, w, hreach, hreplies, hdone, signed_out_unless_late hreach hreplies hdone⟩

/-- Somebody signs out while a job waits for the service, and when both have finished is signed in
again. -/
theorem signed_in_again : ∃ log w,
    World.Reaches Shared.step (signingOut sampleConfig (fun _ : Unit => .refreshUser) sample) log w ∧
    (∀ e ∈ log, ∀ x, e.2.reply? = some x → Served (.ok none) x.call x.reply) ∧
    (∀ i, w.task i = .running (.done ())) ∧
    w.state.session.authorized = true ∧ w.state.store.settings.value Key.userId = "u1" :=
  exists_return_sample

end AccountGate.Account
