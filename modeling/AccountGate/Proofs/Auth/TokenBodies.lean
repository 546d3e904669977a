import AccountGate.Proofs.Auth.Requests
import AccountGate.Proofs.Json.Records

/-!
What the token server may send. The reader of a response takes an object, but also an array of the
fields in their order. Main statement: tokens come from an object without an error or from such an
array, and any other success ends the session.
-/

namespace AccountGate.Auth

open Json.Record

/-- An object whose error, if it has one, is null or empty. -/
def SilentObject (body : Bytes) : Prop :=
  ∃ members, ObjectForm members body ∧ ∀ member ∈ members, Names member.1 "error" →
    Padded (Text.bytes "null") member.2 ∨ Padded [34, 34] member.2

/-- The fields of a response in their order, of which the last may be missing. The lifetime can be
anything. -/
structure SilentItems (items : List Json) : Prop where
  few : items.length ≤ 5
  texts : ∀ i ∈ [0, 1, 4], ∀ item, items[i]? = some item → item = .null ∨ ∃ s, item = .text s
  silent : ∀ error, items[3]? = some error → error = .null ∨ error = .text ""

def SilentArray (body : Bytes) : Prop :=
  ∃ items, Json.parse? body = some (.array items) ∧ SilentItems items

namespace TokenResponse

variable {body : Bytes} {response : TokenResponse} {items : List Json}

theorem text?_eq_some_iff {field : Option Json} {t : Option String} : text? field = some t ↔
    (field = none ∨ field = some .null) ∧ t = none ∨ ∃ s, field = some (.text s) ∧ t = some s := by
  rw [text?.eq_def]
  split <;> simp_all [eq_comm]

/-- What a response says is what its fields say. -/
theorem parse?_eq_some_iff : parse? body = some response ↔ ∃ fields,
    read? ["access_token", "refresh_token", "expires_in", "error", "error_description"] body =
      some fields ∧
    text? (fields.getD 0 none) = some response.accessToken ∧
    text? (fields.getD 1 none) = some response.refreshToken ∧
    (fields.getD 2 none).bind seconds? = response.expiresIn ∧
    text? (fields.getD 3 none) = some response.error ∧
    text? (fields.getD 4 none) = some response.errorDescription := by
  simp only [parse?, Option.bind_eq_bind, Option.bind_eq_some_iff]
  apply exists_congr
  intro fields
  apply and_congr_right
  intro _
  constructor
  · rintro ⟨access, haccess, refresh, hrefresh, error, herror, description, hdescription, h⟩
    obtain rfl := Option.some.inj h
    exact ⟨haccess, hrefresh, rfl, herror, hdescription⟩
  · rintro ⟨haccess, hrefresh, hexpires, herror, hdescription⟩
    refine ⟨_, haccess, _, hrefresh, _, herror, _, hdescription, ?_⟩
    rw [hexpires]
    rfl

theorem parse?_eq_some_iff_of_array (harray : Json.parse? body = some (.array items)) :
    parse? body = some response ↔ items.length ≤ 5 ∧
      text? items[0]? = some response.accessToken ∧
      text? items[1]? = some response.refreshToken ∧
      items[2]?.bind seconds? = response.expiresIn ∧
      text? items[3]? = some response.error ∧
      text? items[4]? = some response.errorDescription := by
  rw [parse?_eq_some_iff]
  simp only [read?_eq_some_iff_of_not_object (expect_object_of_array harray), harray,
    Option.some.injEq, Json.array.injEq, exists_eq_left']
  constructor
  · rintro ⟨fields, ⟨hfew, rfl⟩, h⟩
    simp only [getD_inOrder] at h
    exact ⟨hfew, h⟩
  · rintro ⟨hfew, h⟩
    refine ⟨_, ⟨hfew, rfl⟩, ?_⟩
    simp only [getD_inOrder]
    exact h

theorem exists_text? {field : Option Json}
    (h : ∀ item, field = some item → item = .null ∨ ∃ s, item = .text s) :
    ∃ t, text? field = some t := by
  cases field with
  | none => exact ⟨none, rfl⟩
  | some item =>
    rcases h item rfl with rfl | ⟨s, rfl⟩
    · exact ⟨none, rfl⟩
    · exact ⟨some s, rfl⟩

/-- A field that reads as a text holds one, or null. -/
theorem text_of_text? {item : Json} {t : Option String} (h : text? (some item) = some t) :
    item = .null ∨ ∃ s, item = .text s := by
  rcases text?_eq_some_iff.mp h with ⟨hnone | hnull, -⟩ | ⟨s, htext, -⟩
  · exact absurd hnone (by simp)
  · exact .inl (Option.some.inj hnull)
  · exact .inr ⟨s, Option.some.inj htext⟩

theorem silent_of_text? {item : Json} {t : Option String} (h : text? (some item) = some t)
    (hsilent : ∀ s, t = some s → s = "") : item = .null ∨ item = .text "" := by
  rcases text?_eq_some_iff.mp h with ⟨hnone | hnull, -⟩ | ⟨s, htext, ht⟩
  · exact absurd hnone (by simp)
  · exact .inl (Option.some.inj hnull)
  · exact .inr (hsilent s ht ▸ Option.some.inj htext)

end TokenResponse

namespace Accepts

variable {r : Response} {response : TokenResponse} {items : List Json}

theorem silentObject {rest : Bytes} (h : Accepts r response)
    (hopen : Json.expect 123 r.body = some rest) : SilentObject r.body := by
  obtain ⟨fields, hread, -, -, -, herror, -⟩ := TokenResponse.parse?_eq_some_iff.mp h.decoded
  obtain ⟨members, hform, hkept⟩ := exists_object_of_read? hopen hread
  refine ⟨members, hform, fun member hmem hname => ?_⟩
  obtain ⟨value, hsays, hvalue⟩ := hkept member hmem "error" 3 hname (by decide)
  rw [hvalue] at herror
  rcases TokenResponse.silent_of_text? herror h.no_error with rfl | rfl
  · exact .inl hsays.padded_null
  · exact .inr hsays.padded_empty

theorem silentItems (h : Accepts r response) (harray : Json.parse? r.body = some (.array items)) :
    SilentItems items := by
  obtain ⟨hfew, haccess, hrefresh, -, herror, hdescription⟩ :=
    (TokenResponse.parse?_eq_some_iff_of_array harray).mp h.decoded
  refine ⟨hfew, fun i hi item hitem => ?_, fun error hitem => ?_⟩
  · have htext : ∃ t, TokenResponse.text? items[i]? = some t := by
      simp only [List.mem_cons, List.not_mem_nil, or_false] at hi
      rcases hi with rfl | rfl | rfl
      · exact ⟨_, haccess⟩
      · exact ⟨_, hrefresh⟩
      · exact ⟨_, hdescription⟩
    obtain ⟨t, ht⟩ := htext
    exact TokenResponse.text_of_text? (hitem ▸ ht)
  · exact TokenResponse.silent_of_text? (hitem ▸ herror) h.no_error

/-- What is accepted is an object or an array. -/
theorem silent (h : Accepts r response) : SilentObject r.body ∨ SilentArray r.body := by
  cases hopen : Json.expect 123 r.body with
  | some rest => exact .inl (h.silentObject hopen)
  | none =>
    obtain ⟨fields, hread, -⟩ := TokenResponse.parse?_eq_some_iff.mp h.decoded
    obtain ⟨items, harray, -, -⟩ := (read?_eq_some_iff_of_not_object hopen).mp hread
    exact .inr ⟨items, harray, h.silentItems harray⟩

end Accepts

/-- An array of the fields is accepted. -/
theorem SilentItems.exists_accepts {r : Response} {items : List Json} (h : SilentItems items)
    (hs : 200 ≤ r.status ∧ r.status < 300) (harray : Json.parse? r.body = some (.array items)) :
    ∃ response, Accepts r response ∧
      TokenResponse.text? items[0]? = some response.accessToken := by
  obtain ⟨access, haccess⟩ := TokenResponse.exists_text? (h.texts 0 (by simp))
  obtain ⟨refresh, hrefresh⟩ := TokenResponse.exists_text? (h.texts 1 (by simp))
  obtain ⟨description, hdescription⟩ := TokenResponse.exists_text? (h.texts 4 (by simp))
  obtain ⟨error, herror⟩ : ∃ t, TokenResponse.text? items[3]? = some t :=
    TokenResponse.exists_text? fun item hitem =>
      (h.silent item hitem).imp_right fun hempty => ⟨"", hempty⟩
  refine ⟨⟨access, refresh, items[2]?.bind TokenResponse.seconds?, error, description⟩,
    ⟨hs, ?_, ?_⟩, haccess⟩
  · exact (TokenResponse.parse?_eq_some_iff_of_array harray).mpr
      ⟨h.few, haccess, hrefresh, rfl, herror, hdescription⟩
  · rintro s rfl
    rcases TokenResponse.text?_eq_some_iff.mp herror with ⟨-, hnone⟩ | ⟨s', hitem, hs'⟩
    · exact absurd hnone (by simp)
    · obtain rfl := Option.some.inj hs'
      rcases h.silent _ hitem with hnull | hempty
      · exact absurd hnull (by simp)
      · exact Json.text.inj hempty

/-- An exchange is accepted like a refresh, and brings an access token. -/
theorem exchangeOutcome_eq_ok_iff {r : Response} {access : String} {response : TokenResponse} :
    exchangeOutcome (.ok r) = .ok (access, response) ↔
      Accepts r response ∧ response.accessToken = some access ∧ access ≠ "" := by
  rw [← refreshOutcome_eq_refreshed_iff, ← filled_eq_some_iff]
  unfold exchangeOutcome refreshOutcome
  dsimp only
  by_cases hs : r.isSuccess
  · rw [hs]
    cases TokenResponse.parse? r.body with
    | none => simp
    | some token =>
      dsimp only
      cases token.rejection? with
      | some reason => simp
      | none =>
        cases hfound : filled token.accessToken with
        | none =>
          simp only [Bool.not_true, Bool.false_eq_true, if_false, reduceCtorEq, false_iff]
          rintro ⟨h, hsome⟩
          rw [← RefreshOutcome.refreshed.inj h, hfound] at hsome
          exact absurd hsome (by simp)
        | some access' =>
          simp only [Bool.not_true, Bool.false_eq_true, if_false, Except.ok.injEq, Prod.mk.injEq,
            RefreshOutcome.refreshed.injEq]
          constructor
          · rintro ⟨rfl, rfl⟩
            exact ⟨rfl, hfound⟩
          · rintro ⟨rfl, hsome⟩
            exact ⟨Option.some.inj (hfound.symm.trans hsome), rfl⟩
  · simp [hs]

section Runs

open Program

variable {v v' : Vault} {log : Log} {clientId tokenServer token : String}

theorem alone_refresh_iff {outcome : RefreshOutcome} :
    Flow.Alone Vault.step (refresh tokenServer clientId token) v log outcome v' ↔
      ∃ answer, log = [posted clientId tokenServer token answer] ∧
        refreshOutcome answer = outcome ∧ v = v' := by
  have hsend : v.step (.send (refreshRequest clientId tokenServer token)) = .outside := rfl
  have hrefresh : refresh tokenServer clientId token =
      .ask (.send (refreshRequest clientId tokenServer token)) fun answer =>
        .done (refreshOutcome answer) := rfl
  rw [hrefresh, Flow.alone_ask_of_outside hsend]
  apply exists_congr
  intro answer
  simp only [Flow.alone_done_iff]
  constructor
  · rintro ⟨rest, rfl, rfl, hrest⟩
    exact ⟨rfl, hrest⟩
  · rintro ⟨rfl, hrest⟩
    exact ⟨[], rfl, rfl, hrest⟩

/-- An exchange that goes well yields the credentials that the response issues, stamped by the
clock. -/
theorem exists_of_alone_exchange {x : CodeExchange} {c : Credentials}
    (h : Flow.Alone Vault.step (exchange x) v log (.ok c) v') :
    ∃ r access response clock, log = [⟨.send (exchangeRequest x), .ok r⟩, read clock] ∧
      exchangeOutcome (.ok r) = .ok (access, response) ∧
      c = x.credentials access response (max 0 clock) := by
  have hsend : v.step (.send (exchangeRequest x)) = .outside := rfl
  have hclock : v.step .clock = .outside := rfl
  rw [exchange_eq, Flow.alone_ask_of_outside hsend] at h
  obtain ⟨answer, rest, rfl, h⟩ := h
  cases houtcome : exchangeOutcome answer with
  | error e =>
    rw [houtcome] at h
    obtain ⟨-, herror, -⟩ := Flow.alone_done_iff.mp h
    exact absurd herror (by simp)
  | ok issued =>
    rw [houtcome] at h
    obtain ⟨clock, rest', rfl, hdone⟩ := (Flow.alone_ask_of_outside hclock).mp h
    obtain ⟨rfl, hc, -⟩ := Flow.alone_done_iff.mp hdone
    cases answer with
    | error cause => exact absurd houtcome (by simp [exchangeOutcome])
    | ok r => exact ⟨r, issued.1, issued.2, clock, rfl, houtcome, (Except.ok.inj hc).symm⟩

/-- A turn that the server refuses leaves no access token. -/
theorem Turn.of_refused {t t' : TokenSet} {a : Authorization} {r : Response}
    (h : Turn clientId tokenServer t log a t') (hr : .ok r ∈ log.filterMap answerOf)
    (hrefuses : Refuses r) : a = .expired ∧ t'.access = "" := by
  cases h with
  | ended _ => exact absurd hr (by simp)
  | current _ _ _ => exact absurd hr (by simp)
  | unanswered _ _ _ _ => exact absurd hr (by simp [List.filterMap_cons])
  | refused _ _ _ _ _ => exact ⟨rfl, rfl⟩
  | accepted clock later r' response _ _ ha =>
    obtain rfl : r = r' := by simpa [List.filterMap_cons] using hr
    exact absurd ha (refuses_iff.mp hrefuses response)

/-- The questions to a session that is over. -/
theorem Turns.of_ended {t t' : TokenSet} {turns : List (Log × Authorization)}
    (h : Turns clientId tokenServer t turns t') (ht : t.access = "") :
    ∀ turn ∈ turns, turn = ([], .expired) := by
  induction h with
  | nil t => exact fun turn hmem => absurd hmem List.not_mem_nil
  | cons hturn hturns ih =>
    intro turn hmem
    cases hturn with
    | ended _ => exact (List.mem_cons.mp hmem).elim id (ih ht turn)
    | current _ hne _ => exact absurd ht hne
    | unanswered _ _ hne _ => exact absurd ht hne
    | refused _ _ hne _ _ => exact absurd ht hne
    | accepted _ _ _ _ hne _ _ => exact absurd ht hne

end Runs

/-- A response ends the session that gets it: the refresh is rejected, and whenever it comes in
answer to a question for the header, that one and all later ones answer that the session is over.
It can come whenever the tokens are stale. -/
structure EndsSession (r : Response) : Prop where
  rejected : ∃ reason, refreshOutcome (.ok r) = .rejected reason
  ended : ∀ (c : Credentials) (v : Vault), v.created ∉ v.held →
    let started := v.create (.bearer (.ofCredentials c))
    ∀ turns v', Flow.InRow Vault.step (Program.header started.1) started.2 turns v' →
      ∀ log a v'', Flow.Alone Vault.step (Program.header started.1) v' log a v'' →
        .ok r ∈ log.filterMap answerOf →
        a = .expired ∧ (v''.tokensOf v.created).access.value = "" ∧
          ∀ more w, Flow.InRow Vault.step (Program.header started.1) v'' more w →
            ∀ turn ∈ more, turn = ([], .expired)
  reached : ∀ (c : Credentials) (v : Vault), v.created ∉ v.held →
    let started := v.create (.bearer (.ofCredentials c))
    ∀ turns v', Flow.InRow Vault.step (Program.header started.1) started.2 turns v' →
      let held := v'.tokensOf v.created
      ∀ clock, held.access.value ≠ "" → held.isFresh (max 0 clock) = false →
        ∃ v'', Flow.Alone Vault.step (Program.header started.1) v'
          [read clock, posted c.clientId c.tokenServer held.refresh.value (.ok r),
            counted .refreshRefused] .expired v''

theorem Refuses.endsSession {r : Response} (h : Refuses r) : EndsSession r := by
  refine ⟨rejected_of_refuses h, fun c v hfree => ?_, fun c v hfree => ?_⟩
  all_goals
    intro started turns v' hturns
    obtain ⟨t, -, hmoved⟩ := Vault.turns_of_inRow (v := started.2) hfree
      (Vault.tokensOf_create_bearer v c) hturns
    have hfree' : v.created ∉ v'.held := by
      rw [hmoved.held_eq]
      exact hfree
  · intro log a v'' hrun hr
    obtain ⟨t', hturn, hmoved'⟩ := Vault.turn_of_alone hfree' hmoved.tokens_eq hrun
    obtain ⟨rfl, hended⟩ := hturn.of_refused hr h
    refine ⟨rfl, by rw [hmoved'.tokens_eq]; exact hended, fun more w hmore => ?_⟩
    have hfree'' : v.created ∉ v''.held := by
      rw [hmoved'.held_eq]
      exact hfree'
    obtain ⟨u, hmore', -⟩ := Vault.turns_of_inRow hfree'' hmoved'.tokens_eq hmore
    exact hmore'.of_ended hended
  · intro held clock hlive hstale
    have hheld : held = t.tokens := hmoved.tokens_eq
    rw [hheld] at hlive hstale ⊢
    have hturn : Turn c.clientId c.tokenServer t _ .expired t.refused :=
      .refused clock r hlive (fun hf => by
        rw [TokenSet.isFresh_tokens_iff.mpr hf] at hstale
        exact absurd hstale (by simp)) h
    obtain ⟨v'', hrun, -⟩ := Vault.alone_of_turn hfree' hmoved.tokens_eq hturn
    exact ⟨v'', hrun⟩

theorem refuses_of_not_silent {r : Response} (hobject : ¬ ∃ members, ObjectForm members r.body)
    (harray : ¬ SilentArray r.body) : Refuses r := by
  refine refuses_iff.mpr fun response h => ?_
  rcases h.silent with ⟨members, hform, -⟩ | hsilent
  · exact hobject ⟨members, hform⟩
  · exact harray hsilent

/-- What an answer of the token server may do. A refresh succeeds only by an object without an
error, or by an array of the fields of a response in their order, without an error. Any other
success ends the session that gets it. An exchange takes the same bodies, when they bring an access
token. -/
theorem tokens_come_from_objects_and_arrays (answer : Answer) :
    (∀ tokenServer clientId token v log response v',
      Flow.Alone Vault.step (Program.refresh tokenServer clientId token) v log
        (.refreshed response) v' → answer ∈ log.filterMap answerOf →
      ∃ r, answer = .ok r ∧ (200 ≤ r.status ∧ r.status < 300) ∧
        (SilentObject r.body ∨ SilentArray r.body)) ∧
    (∀ r, answer = .ok r → 200 ≤ r.status ∧ r.status < 300 →
      (¬ ∃ members, ObjectForm members r.body) →
      ((∃ response, refreshOutcome answer = .refreshed response) ↔ SilentArray r.body) ∧
      (¬ SilentArray r.body → EndsSession r)) ∧
    (∀ x v log c v', Flow.Alone Vault.step (Program.exchange x) v log (.ok c) v' →
      answer ∈ log.filterMap answerOf →
      ∃ r, answer = .ok r ∧ (200 ≤ r.status ∧ r.status < 300) ∧ c.accessToken ≠ "" ∧
        (SilentObject r.body ∨ ∃ items, Json.parse? r.body = some (.array items) ∧
          SilentItems items ∧ items[0]? = some (.text c.accessToken))) ∧
    (∀ r items access, answer = .ok r → 200 ≤ r.status ∧ r.status < 300 →
      Json.parse? r.body = some (.array items) → SilentItems items →
      items[0]? = some (.text access) → access ≠ "" →
      ∃ response, exchangeOutcome answer = .ok (access, response)) := by
  refine ⟨fun tokenServer clientId token v log response v' h hmem => ?_, fun r hr hs hobject => ?_,
    fun x v log c v' h hmem => ?_, fun r items access hr hs harray hitems hitem hne => ?_⟩
  · obtain ⟨answer', rfl, houtcome, -⟩ := alone_refresh_iff.mp h
    obtain rfl : answer = answer' := by simpa using hmem
    cases answer with
    | error cause => exact absurd houtcome (by simp [refreshOutcome])
    | ok r =>
      have haccepts := refreshOutcome_eq_refreshed_iff.mp houtcome
      exact ⟨r, rfl, haccepts.success, haccepts.silent⟩
  · subst hr
    refine ⟨⟨fun hrefreshed => ?_, fun hsilent => ?_⟩,
      fun harray => (refuses_of_not_silent hobject harray).endsSession⟩
    · obtain ⟨response, houtcome⟩ := hrefreshed
      rcases (refreshOutcome_eq_refreshed_iff.mp houtcome).silent with ⟨members, hform, -⟩ | h
      · exact absurd ⟨members, hform⟩ hobject
      · exact h
    · obtain ⟨items, harray, hitems⟩ := hsilent
      obtain ⟨response, haccepts, -⟩ := hitems.exists_accepts hs harray
      exact ⟨response, refreshOutcome_eq_refreshed_iff.mpr haccepts⟩
  · obtain ⟨r, access, response, clock, rfl, houtcome, rfl⟩ := exists_of_alone_exchange h
    obtain rfl : answer = .ok r := by simpa [answerOf, read] using hmem
    obtain ⟨haccepts, haccess, hne⟩ := exchangeOutcome_eq_ok_iff.mp houtcome
    refine ⟨r, rfl, haccepts.success, hne, haccepts.silent.imp_right ?_⟩
    rintro ⟨items, harray, hitems⟩
    refine ⟨items, harray, hitems, ?_⟩
    obtain ⟨-, htext, -⟩ :=
      (TokenResponse.parse?_eq_some_iff_of_array harray).mp haccepts.decoded
    rw [haccess] at htext
    rcases TokenResponse.text?_eq_some_iff.mp htext with ⟨-, hnone⟩ | ⟨s, hitem, hs⟩
    · exact absurd hnone (by simp)
    · rw [hitem, ← Option.some.inj hs]
      rfl
  · subst hr
    obtain ⟨response, haccepts, htext⟩ := hitems.exists_accepts hs harray
    rw [hitem] at htext
    exact ⟨response, exchangeOutcome_eq_ok_iff.mpr ⟨haccepts, (Option.some.inj htext).symm, hne⟩⟩

/-- A page is no token response. -/
theorem page_ends_session : EndsSession { body := Text.bytes "<html></html>" } := by
  have hobject : ¬ ∃ members, ObjectForm members (Text.bytes "<html></html>") :=
    not_objectForm (by decide +kernel)
  have harray : ¬ SilentArray (Text.bytes "<html></html>") := by
    rintro ⟨items, hparse, -⟩
    have hnone : Json.parse? (Text.bytes "<html></html>") = none := by decide +kernel
    exact absurd (hnone.symm.trans hparse) (by simp)
  exact ((tokens_come_from_objects_and_arrays _).2.1 _ rfl (by decide) hobject).2 harray

/-- An empty array is taken for new tokens, and stamps the old ones as fresh; an array of one text
is taken for an access token. -/
theorem empty_array_keeps_session :
    let started := ({} : Vault).create (.bearer (.ofCredentials
      { accessToken := "A", refreshToken := "R", expiresIn := 60 }))
    let nothing : Response := { body := Text.bytes "[]" }
    let one : Response := { body := Text.bytes "[\"B\"]" }
    (¬ ∃ members, ObjectForm members nothing.body) ∧
    refreshOutcome (.ok nothing) = .refreshed {} ∧
    (∃ v', Flow.Alone Vault.step (Program.header started.1) started.2
      [read 100, posted "" "" "R" (.ok nothing), read 100, counted .tokenRefreshed]
      (.header "Bearer" "A") v' ∧ (v'.tokensOf 0).isFresh 100 = true) ∧
    (¬ ∃ members, ObjectForm members one.body) ∧
    exchangeOutcome (.ok one) = .ok ("B", { accessToken := some "B" }) := by
  intro started nothing one
  have hnothing : refreshOutcome (.ok nothing) = .refreshed {} := by decide +kernel
  have hturn : Turn "" "" ⟨"A", "R", 60, 0⟩
      [read 100, posted "" "" "R" (.ok nothing), read 100, counted .tokenRefreshed]
      (.header "Bearer" "A") ⟨"A", "R", 60, 100⟩ :=
    .accepted 100 100 nothing {} (by decide) (by unfold TokenSet.Fresh; decide)
      (refreshOutcome_eq_refreshed_iff.mp hnothing)
  obtain ⟨v', hrun, hmoved⟩ := Vault.alone_of_turn (v := started.2) (by decide)
    (Vault.tokensOf_create_bearer {} _) hturn
  refine ⟨not_objectForm (by decide +kernel), hnothing, ⟨v', hrun, ?_⟩,
    not_objectForm (by decide +kernel), by decide +kernel⟩
  rw [hmoved.tokens_eq]
  decide

end AccountGate.Auth
