import AccountGate.Proofs.Auth.FirstHeader
import AccountGate.Proofs.Auth.Redacted
import AccountGate.Proofs.Decimal.Signed
import AccountGate.Proofs.Json.Inserted
import AccountGate.Proofs.Json.Numbers

/-!
The lifetime in a response of the token server. Main statement: a response that is decoded without
one is decoded with any value for it, and nothing else in it changes; so no refresh is refused for
the lifetime, and one that says nothing leaves the lifetime as it was.
-/

namespace AccountGate.Auth

open Decimal (IsSignedDecimal minInt64 maxInt64)
open Json (members?)
open Json.Record (Says)

/-- The seconds that a value says, if any. Minus zero is read as a float; about all other floats
nothing is said here. -/
inductive Lifetime : Json → Option Int → Prop
  | null : Lifetime .null none
  | bool (b : Bool) : Lifetime (.bool b) none
  | whole {n : Int} (hlow : minInt64 ≤ n) (hhigh : n ≤ maxInt64) :
      Lifetime (.number (.int n)) (some n)
  | large {n : Int} (h : maxInt64 < n) : Lifetime (.number (.int n)) (some maxInt64)
  | minusZero : Lifetime (.number (.real (-0.0))) (some 0)
  | decimal {s : String} {n : Int} (h : IsSignedDecimal (Text.trim s).toList n)
      (hlow : minInt64 ≤ n) (hhigh : n ≤ maxInt64) : Lifetime (.text s) (some n)
  | words {s : String} (h : ∀ n, IsSignedDecimal (Text.trim s).toList n →
      ¬ (minInt64 ≤ n ∧ n ≤ maxInt64)) : Lifetime (.text s) none
  | array (items : List Json) : Lifetime (.array items) none
  | object (members : List (String × Json)) : Lifetime (.object members) none

namespace TokenResponse

/-- A value that can be written says the seconds that are read from it, unless it is a number with
a fraction, an exponent or more than 64 bits. -/
theorem lifetime_seconds? {value : Json} (h : Json.Word value) :
    Lifetime value (seconds? value) ∨ ∃ x, x ≠ -0.0 ∧ value = .number (.real x) := by
  match value, h with
  | .null, _ => exact .inl .null
  | .bool b, _ => exact .inl (.bool b)
  | .number (.int n), h =>
    obtain ⟨hlow, -⟩ : -(Json.minMagnitude : Int) ≤ n ∧ n ≤ Json.maxWord := h
    rw [seconds?]
    split
    · next hhigh => exact .inl (.whole hlow hhigh)
    · next hlarge => exact .inl (.large (by omega))
  | .number (.real x), _ =>
    by_cases hx : x = -0.0
    · subst hx
      have hzero : seconds? (.number (.real (-0.0))) = some 0 := by decide +kernel
      exact .inl (hzero ▸ .minusZero)
    · exact .inr ⟨x, hx, rfl⟩
  | .text s, _ =>
    rw [seconds?]
    cases hread : Decimal.readInt64? (Text.trim s) with
    | some n =>
      obtain ⟨hspelled, hlow, hhigh⟩ := Decimal.readInt64?_eq_some_iff.mp hread
      exact .inl (.decimal hspelled hlow hhigh)
    | none =>
      refine .inl (.words fun n hspelled hfits => ?_)
      have hsome := Decimal.readInt64?_eq_some_iff.mpr ⟨hspelled, hfits⟩
      exact absurd (hread.symm.trans hsome) (by simp)
  | .array items, _ => exact .inl (.array items)
  | .object members, _ => exact .inl (.object members)

/-- The lifetime has a field of its own. -/
theorem ofFields?_set_lifetime {fields : Json.Record.Fields} (h : 2 < fields.length)
    (value : Json) : ofFields? (fields.set 2 (some value)) =
      (ofFields? fields).map fun response => { response with expiresIn := seconds? value } := by
  simp only [ofFields?, Json.Record.getD_set h, Nat.reduceEqDiff, OfNat.ofNat_ne_zero,
    OfNat.ofNat_ne_one, if_false, if_true, Option.bind_some]
  cases text? (fields.getD 0 none) with
  | none => rfl
  | some access =>
    cases text? (fields.getD 1 none) with
    | none => rfl
    | some refresh =>
      cases text? (fields.getD 3 none) with
      | none => rfl
      | some error => cases text? (fields.getD 4 none) <;> rfl

theorem parse?_of_insert {body body' : Bytes} {before after : List (String × Option Json)}
    {value : Json} (h : members? body = some (before ++ after))
    (h' : members? body' = some (before ++ ("expires_in", some value) :: after))
    (hother : ∀ member ∈ before ++ after, member.1 ≠ "expires_in") :
    parse? body' =
      (parse? body).map fun response => { response with expiresIn := seconds? value } := by
  rw [parse?_eq, parse?_eq, Json.Record.read?_of_insert (i := 2) (by decide) h h' hother]
  cases hread : Json.Record.read? fieldNames body with
  | none => rfl
  | some fields =>
    exact ofFields?_set_lifetime (by rw [Json.Record.length_of_read? h hread]; decide) value

end TokenResponse

/-- A body that says what another says, and a lifetime besides. -/
def SaysLifetime (body body' : Bytes) (lifetime : Option Int) : Prop :=
  TokenResponse.parse? body' =
    (TokenResponse.parse? body).map fun response => { response with expiresIn := lifetime }

section Answers

variable {body body' : Bytes} {lifetime : Option Int}

theorem SaysLifetime.accepts_iff (h : SaysLifetime body body' lifetime) (r : Response)
    (response' : TokenResponse) : Accepts { r with body := body' } response' ↔
      ∃ response, Accepts { r with body := body } response ∧
        response' = { response with expiresIn := lifetime } := by
  constructor
  · rintro ⟨hsuccess, hdecoded, herror⟩
    obtain ⟨response, hbody, rfl⟩ := Option.map_eq_some_iff.mp (h.symm.trans hdecoded)
    exact ⟨response, ⟨hsuccess, hbody, herror⟩, rfl⟩
  · rintro ⟨response, ⟨hsuccess, hdecoded, herror⟩, rfl⟩
    exact ⟨hsuccess, h.trans (Option.map_eq_some_iff.mpr ⟨response, hdecoded, rfl⟩), herror⟩

theorem SaysLifetime.refuses_iff (h : SaysLifetime body body' lifetime) (r : Response) :
    Refuses { r with body := body' } ↔ Refuses { r with body := body } := by
  rw [Auth.refuses_iff, Auth.refuses_iff]
  constructor
  · intro hnone response haccepts
    exact hnone _ ((h.accepts_iff r _).mpr ⟨response, haccepts, rfl⟩)
  · intro hnone response' haccepts
    obtain ⟨response, haccepts, -⟩ := (h.accepts_iff r response').mp haccepts
    exact hnone response haccepts

/-- A turn that is answered with the lifetime, and the same without it. -/
theorem Turn.of_lifetime {clientId tokenServer : String} {t t' : TokenSet} {log : Log}
    {a : Authorization} {r : Response} (h : Turn clientId tokenServer t log a t')
    (hr : .ok { r with body := body' } ∈ log.filterMap answerOf)
    (hlike : SaysLifetime body body' lifetime) :
    (a = .expired ↔ Refuses { r with body := body }) ∧
      (a ≠ .expired → t'.expiresIn = lifetime.getD t.expiresIn) ∧
      ∃ log' u, Turn clientId tokenServer t log' a u ∧
        log'.filterMap clockOf = log.filterMap clockOf ∧
        log'.filterMap answerOf = [.ok { r with body := body }] ∧
        t' = { u with expiresIn := t'.expiresIn } := by
  cases h with
  | ended _ => exact absurd hr (by simp)
  | current _ _ _ => exact absurd hr (by simp)
  | unanswered _ _ _ _ => exact absurd hr (by simp [List.filterMap_cons])
  | refused clock r' hlive hstale hrefuses =>
    obtain rfl : { r with body := body' } = r' := by simpa [List.filterMap_cons] using hr
    have hrefuses' := (hlike.refuses_iff r).mp hrefuses
    exact ⟨iff_of_true rfl hrefuses', fun hne => absurd rfl hne, _, _,
      .refused clock _ hlive hstale hrefuses', by simp [List.filterMap_cons],
      by simp [List.filterMap_cons], rfl⟩
  | accepted clock later r' response' hlive hstale haccepts =>
    obtain rfl : { r with body := body' } = r' := by simpa [List.filterMap_cons] using hr
    obtain ⟨response, haccepts', rfl⟩ := (hlike.accepts_iff r response').mp haccepts
    refine ⟨iff_of_false (by simp) fun hrefuses => ?_, fun _ => rfl, _, _,
      .accepted clock later _ response hlive hstale haccepts', by simp [List.filterMap_cons],
      by simp [List.filterMap_cons], rfl⟩
    exact Auth.refuses_iff.mp hrefuses response haccepts'

/-- A session that asks for a refresh can get any answer. -/
theorem exists_turn_of_answer (clientId tokenServer : String) {t : TokenSet} {clock : Int}
    (hlive : t.access ≠ "") (hstale : ¬ t.Fresh clock) (later : Int) (r : Response) :
    ∃ log a t', Turn clientId tokenServer t log a t' ∧
      log.filterMap clockOf <+: [clock, later] ∧ log.filterMap answerOf = [.ok r] := by
  by_cases hr : Refuses r
  · exact ⟨_, _, _, .refused clock r hlive hstale hr, by simp [List.filterMap_cons],
      by simp [List.filterMap_cons]⟩
  · obtain ⟨response, haccepts⟩ : ∃ response, Accepts r response := by
      simpa [refuses_iff] using hr
    exact ⟨_, _, _, .accepted clock later r response hlive hstale haccepts,
      by simp [List.filterMap_cons], by simp [List.filterMap_cons]⟩

end Answers

/-- What two bodies that differ in a lifetime are to a session. They are refused together. A
question for the header that gets the one ends as with the other, and leaves the same tokens; the
lifetime that it leaves is the new one, or the one before when there is none. The one can come
whenever the tokens are stale. -/
structure TouchesLifetime (body body' : Bytes) (lifetime : Option Int) : Prop where
  refused_iff : ∀ r : Response, Refuses { r with body := body' } ↔ Refuses { r with body := body }
  answered : ∀ (r : Response) (c : Credentials) (v : Vault), v.created ∉ v.held →
    let started := v.create (.bearer (.ofCredentials c))
    ∀ turns v', Flow.InRow Vault.step (Program.header started.1) started.2 turns v' →
      ∀ log a v'', Flow.Alone Vault.step (Program.header started.1) v' log a v'' →
        .ok { r with body := body' } ∈ log.filterMap answerOf →
        let left := v''.tokensOf v.created
        (a = .expired ↔ Refuses { r with body := body }) ∧
        (a ≠ .expired → left.expiresIn = lifetime.getD (v'.tokensOf v.created).expiresIn) ∧
        ∃ log' u, Flow.Alone Vault.step (Program.header started.1) v' log' a u ∧
          log'.filterMap clockOf = log.filterMap clockOf ∧
          log'.filterMap answerOf = [.ok { r with body := body }] ∧
          left = { u.tokensOf v.created with expiresIn := left.expiresIn }
  reached : ∀ (r : Response) (c : Credentials) (v : Vault), v.created ∉ v.held →
    let started := v.create (.bearer (.ofCredentials c))
    ∀ turns v', Flow.InRow Vault.step (Program.header started.1) started.2 turns v' →
      let held := v'.tokensOf v.created
      ∀ clock later, held.access.value ≠ "" → held.isFresh (max 0 clock) = false →
        ∃ log a v'', Flow.Alone Vault.step (Program.header started.1) v' log a v'' ∧
          log.filterMap clockOf <+: [clock, later] ∧
          log.filterMap answerOf = [.ok { r with body := body' }]

/-- Between two questions a session is free and holds tokens as they are kept. -/
theorem exists_tokens_of_inRow {c : Credentials} {v v' : Vault} {turns : List (Log × Authorization)}
    (hfree : v.created ∉ v.held)
    (h : Flow.InRow Vault.step (Program.header (v.create (.bearer (.ofCredentials c))).1)
      (v.create (.bearer (.ofCredentials c))).2 turns v') :
    ∃ t : TokenSet, v'.tokensOf v.created = t.tokens ∧ v.created ∉ v'.held := by
  have hstarted : v.created ∉ (v.create (.bearer (.ofCredentials c))).2.held := hfree
  obtain ⟨t, -, hmoved⟩ := Vault.turns_of_inRow hstarted (Vault.tokensOf_create_bearer v c) h
  refine ⟨t, hmoved.tokens_eq, ?_⟩
  rw [hmoved.held_eq]
  exact hfree

theorem SaysLifetime.touchesLifetime {body body' : Bytes} {lifetime : Option Int}
    (h : SaysLifetime body body' lifetime) : TouchesLifetime body body' lifetime := by
  refine ⟨h.refuses_iff, fun r c v hfree => ?_, fun r c v hfree => ?_⟩
  · intro started turns v' hturns log a v'' hrun hr left
    obtain ⟨t, hheld, hfree'⟩ := exists_tokens_of_inRow hfree hturns
    obtain ⟨t', hturn, hmoved⟩ := Vault.turn_of_alone hfree' hheld hrun
    obtain ⟨hexpired, hlifetime, log', u, hturn', hclocks, hanswers, hsame⟩ :=
      hturn.of_lifetime hr h
    obtain ⟨w, hrun', hmoved'⟩ := Vault.alone_of_turn hfree' hheld hturn'
    have hleft : left = t'.tokens := hmoved.tokens_eq
    refine ⟨hexpired, fun hne => ?_, log', w, hrun', hclocks, hanswers, ?_⟩
    · rw [hleft, hheld]
      exact hlifetime hne
    · rw [hleft, hmoved'.tokens_eq]
      exact congrArg TokenSet.tokens hsame
  · intro started turns v' hturns held clock later hlive hstale
    obtain ⟨t, hheld, hfree'⟩ := exists_tokens_of_inRow hfree hturns
    have hsame : held = t.tokens := hheld
    rw [hsame] at hlive hstale
    have hnot : ¬ t.Fresh clock := by
      rw [← TokenSet.isFresh_tokens_iff, hstale]
      simp
    obtain ⟨log, a, t', hturn, hclocks, hanswers⟩ :=
      exists_turn_of_answer c.clientId c.tokenServer hlive hnot later { r with body := body' }
    obtain ⟨v'', hrun, -⟩ := Vault.alone_of_turn hfree' hheld hturn
    exact ⟨log, a, v'', hrun, hclocks, hanswers⟩

/-- An object that is decoded without a lifetime. Any text of a value can be written into it as one,
at any place among its members; each body with these members is decoded to the same but for the
lifetime, which is what the value says, and to a session it differs in the lifetime alone. -/
theorem any_lifetime_is_decoded {body rest : Bytes} {response : TokenResponse}
    (hobject : Json.expect 123 body = some rest)
    (hdecoded : TokenResponse.parse? body = some response) :
    (∀ value, Json.Exact (Json.maxDepth - 1) value → ∃ text, Says text value) ∧
    ∃ members, members? body = some members ∧
      ("expires_in" ∉ members.map Prod.fst → ∀ text value, Says text value → ∃ lifetime,
        (Lifetime value lifetime ∨ ∃ x, x ≠ -0.0 ∧ value = .number (.real x)) ∧
        ∀ before after, members = before ++ after →
          (∃ front back lead trail, body = front ++ back ∧
            (lead = [] ∨ lead = [44]) ∧ (trail = [] ∨ trail = [44]) ∧
            members? (front ++ (lead ++ (Text.bytes "\"expires_in\":" ++ text) ++ trail) ++ back) =
              some (before ++ ("expires_in", some value) :: after)) ∧
          ∀ body', members? body' = some (before ++ ("expires_in", some value) :: after) →
            TokenResponse.parse? body' = some { response with expiresIn := lifetime } ∧
            TouchesLifetime body body' lifetime) := by
  refine ⟨fun value hvalue => ⟨_, hvalue.says_render⟩, ?_⟩
  obtain ⟨fields, hread, -⟩ := TokenResponse.parse?_eq_some_iff.mp hdecoded
  obtain ⟨members, hmembers⟩ := Json.Record.exists_members?_of_read? hobject hread
  refine ⟨members, hmembers, fun hnew text value htext => ?_⟩
  have hword : Json.Word value := by
    obtain ⟨_, _, _, -, -, hvalue⟩ := htext
    exact Json.word_of_readValue hvalue
  refine ⟨_, TokenResponse.lifetime_seconds? hword, ?_⟩
  rintro before after rfl
  have hother : ∀ member ∈ before ++ after, member.1 ≠ "expires_in" := fun member hmem heq =>
    hnew (heq ▸ List.mem_map_of_mem hmem)
  refine ⟨Json.exists_members?_insert (Json.written_of_says htext "expires_in") hmembers,
    fun body' hbody' => ?_⟩
  have hlike : SaysLifetime body body' (TokenResponse.seconds? value) :=
    TokenResponse.parse?_of_insert hmembers hbody' hother
  exact ⟨by rw [hlike, hdecoded]; rfl, hlike.touchesLifetime⟩

/-- A text with blanks and a sign is a lifetime. -/
theorem text_is_lifetime :
    let body := Text.bytes "\x7b\"access_token\":\"A1\"\x7d"
    let body' := Text.bytes "\x7b\"access_token\":\"A1\",\"expires_in\":\" +60 \"\x7d"
    Json.expect 123 body = some (Text.bytes "\"access_token\":\"A1\"\x7d") ∧
    TokenResponse.parse? body = some { accessToken := some "A1" } ∧
    TokenResponse.parse? body' = some { accessToken := some "A1", expiresIn := some 60 } ∧
    TouchesLifetime body body' (some 60) := by
  intro body body'
  have hobject : Json.expect 123 body = some (Text.bytes "\"access_token\":\"A1\"\x7d") := by
    decide +kernel
  have hdecoded : TokenResponse.parse? body = some { accessToken := some "A1" } := by
    decide +kernel
  have hmembers : Json.texts? body = some [("access_token", "A1")] := by decide +kernel
  have hmembers' : Json.texts? body' = some [("access_token", "A1"), ("expires_in", " +60 ")] := by
    decide +kernel
  have htext : Says (Text.bytes (Json.render (.text " +60 "))) (.text " +60 ") :=
    Json.Exact.says_render (.text " +60 ")
  have hread : Decimal.readInt64? (Text.trim " +60 ") = some 60 := by decide +kernel
  obtain ⟨-, members, hlisted, hall⟩ := any_lifetime_is_decoded hobject hdecoded
  obtain rfl := Option.some.inj ((Json.members?_of_texts? hmembers).symm.trans hlisted)
  obtain ⟨lifetime, hlifetime | ⟨x, -, hreal⟩, hplaces⟩ := hall (by decide) _ _ htext
  · obtain rfl : lifetime = some 60 := by
      cases hlifetime with
      | decimal hspelled hlow hhigh =>
        exact (Decimal.readInt64?_eq_some_iff.mpr ⟨hspelled, hlow, hhigh⟩).symm.trans hread
      | words hnone =>
        obtain ⟨hspelled, hfits⟩ := Decimal.readInt64?_eq_some_iff.mp hread
        exact absurd hfits (hnone 60 hspelled)
    obtain ⟨hsame, htouches⟩ :=
      (hplaces _ [] (List.append_nil _).symm).2 body' (Json.members?_of_texts? hmembers')
    exact ⟨hobject, hdecoded, hsame, htouches⟩
  · exact absurd hreal (by simp)

end AccountGate.Auth
