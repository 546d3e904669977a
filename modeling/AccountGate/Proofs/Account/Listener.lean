import AccountGate.Account.Loopback
import AccountGate.Proofs.Account.Redirects

/-!
Which redirect a sign-in gets, and what it takes from it. Main statement: of all requests that reach
the listener, the first redirect is handed over and no other; and from a redirect with a code, that
code is taken exactly where the state is the expected one and no error is reported.
-/

namespace AccountGate.Account

open Loopback
open Url.Form (Pairs values)

/-- A request that brings a redirect. -/
structure Visit.IsRedirect (v : Visit) : Prop where
  path : v.path = route
  method : v.method = "GET" ∨ v.method = "HEAD"
  once : Redirect.Once (Url.Form.decode v.query)

/-- What a request is answered. -/
inductive Visit.IsAnswered (v : Visit) : Reply → Prop where
  | page {r : Redirect} (redirect : v.IsRedirect) (content : r.Says (Url.Form.decode v.query)) :
    v.IsAnswered (.page (pageFor r))
  | badQuery (path : v.path = route) (method : v.method = "GET" ∨ v.method = "HEAD")
    (twice : ¬Redirect.Once (Url.Form.decode v.query)) : v.IsAnswered .badQuery
  | wrongMethod (path : v.path = route) (method : ¬(v.method = "GET" ∨ v.method = "HEAD")) :
    v.IsAnswered .wrongMethod
  | notFound (path : v.path ≠ route) : v.IsAnswered .notFound

variable {v : Visit} {visits : List Visit} {r : Redirect} {handed : Handed}

theorem Loopback.receive_eq_ok_iff :
    receive v = .ok r ↔ v.IsRedirect ∧ r.Says (Url.Form.decode v.query) := by
  rw [receive]
  split
  · next hpath => exact ⟨fun h => absurd h (by simp), fun h => absurd h.1.path hpath⟩
  · next hpath =>
    split
    · next hmethod =>
      exact ⟨fun h => absurd h (by simp), fun h => absurd h.1.method (not_or.mpr hmethod)⟩
    · next hmethod =>
      rw [← not_or, not_not] at hmethod
      have hreads : Redirect.ofQuery? v.query = some r ↔ r.Says (Url.Form.decode v.query) :=
        Redirect.ofQuery?_eq_some_iff
      have hredirect (h : r.Says (Url.Form.decode v.query)) : v.IsRedirect :=
        ⟨not_not.mp hpath, hmethod, h.once⟩
      cases hquery : Redirect.ofQuery? v.query with
      | none =>
        rw [hquery] at hreads
        exact ⟨fun h => absurd h (by simp), fun h => absurd (hreads.mpr h.2) (by simp)⟩
      | some found =>
        rw [hquery, Option.some.injEq] at hreads
        rw [Except.ok.injEq, hreads]
        exact ⟨fun h => ⟨hredirect h, h⟩, And.right⟩

theorem Loopback.isAnswered_of_receive {reply : Reply} (h : receive v = .error reply) :
    v.IsAnswered reply := by
  rw [receive] at h
  split at h
  · next hpath =>
    obtain rfl := Except.error.inj h
    exact .notFound hpath
  · next hpath =>
    split at h
    · next hmethod =>
      obtain rfl := Except.error.inj h
      exact .wrongMethod (not_not.mp hpath) (not_or.mpr hmethod)
    · next hmethod =>
      rw [← not_or, not_not] at hmethod
      split at h
      · next hnone =>
        obtain rfl := Except.error.inj h
        refine .badQuery (not_not.mp hpath) hmethod fun honce => ?_
        obtain ⟨r, hr⟩ := Redirect.exists_says_iff.mpr honce
        rw [Redirect.ofQuery?_eq_some_iff.mpr hr] at hnone
        exact absurd hnone (by simp)
      · exact absurd h (by simp)

/-- Each request is answered for what it is, whatever has been handed over. -/
theorem Loopback.isAnswered_serve : v.IsAnswered (serve handed v).1 := by
  rw [serve]
  cases hreceive : receive v with
  | error reply => exact isAnswered_of_receive hreceive
  | ok r =>
    obtain ⟨hredirect, hsaid⟩ := receive_eq_ok_iff.mp hreceive
    exact .page hredirect hsaid

theorem Loopback.handed_serve : (serve handed v).2 = handed.or (receive v).toOption := by
  rw [serve]
  cases receive v with
  | error reply => exact (Option.or_none).symm
  | ok r => rfl

theorem Loopback.isAnswered_serveAll :
    List.Forall₂ Visit.IsAnswered visits (serveAll handed visits).1 := by
  induction visits generalizing handed with
  | nil => exact .nil
  | cons v rest ih => exact .cons isAnswered_serve ih

/-- What has been handed over stays; else it is the first redirect that comes. -/
theorem Loopback.handed_serveAll :
    (serveAll handed visits).2 = handed.or (visits.findSome? fun v => (receive v).toOption) := by
  induction visits generalizing handed with
  | nil => exact (Option.or_none).symm
  | cons v rest ih =>
    rw [serveAll, ih, handed_serve, Option.or_assoc, List.findSome?_cons]
    cases (receive v).toOption <;> rfl

theorem Loopback.receive_toOption_eq_some_iff :
    (receive v).toOption = some r ↔ v.IsRedirect ∧ r.Says (Url.Form.decode v.query) := by
  rw [← receive_eq_ok_iff]
  cases receive v <;> simp [Except.toOption]

theorem Loopback.receive_toOption_eq_none_iff : (receive v).toOption = none ↔ ¬v.IsRedirect := by
  rw [Option.eq_none_iff_forall_ne_some]
  simp only [ne_eq, receive_toOption_eq_some_iff, not_and]
  exact ⟨fun h hv => (Redirect.exists_says_iff.mpr hv.once).elim fun r hr => h r hv hr,
    fun h r hv => absurd hv h⟩

/-- Exactly the first redirect is handed over. -/
theorem Loopback.handed_serveAll_eq_some_iff :
    (serveAll none visits).2 = some r ↔ ∃ before v after, visits = before ++ v :: after ∧
      (∀ u ∈ before, ¬u.IsRedirect) ∧ v.IsRedirect ∧ r.Says (Url.Form.decode v.query) := by
  rw [handed_serveAll, Option.none_or, List.findSome?_eq_some_iff]
  simp only [receive_toOption_eq_some_iff, receive_toOption_eq_none_iff]
  constructor
  · rintro ⟨before, v, after, hvisits, hv, hbefore⟩
    exact ⟨before, v, after, hvisits, hbefore, hv⟩
  · rintro ⟨before, v, after, hvisits, hbefore, hv⟩
    exact ⟨before, v, after, hvisits, hv, hbefore⟩

/-- Nothing is handed over exactly where no redirect comes. -/
theorem Loopback.handed_serveAll_eq_none_iff :
    (serveAll none visits).2 = none ↔ ∀ v ∈ visits, ¬v.IsRedirect := by
  rw [handed_serveAll, Option.none_or, List.findSome?_eq_none_iff]
  simp only [receive_toOption_eq_none_iff]

/-- What is written as a query arrives, if no redirect has come before it. -/
theorem Loopback.handed_serveAll_encode {fields : Pairs} {before after : List Visit}
    {method : String} (hsaid : r.Says fields) (hbefore : ∀ u ∈ before, ¬u.IsRedirect)
    (hmethod : method = "GET" ∨ method = "HEAD") :
    (serveAll none (before ++ ⟨method, route, Text.bytes (Url.Form.encode fields)⟩ :: after)).2 =
      some r := by
  have hread : Url.Form.decode (Text.bytes (Url.Form.encode fields)) = fields :=
    Url.Form.decode_bytes_encode fields
  refine handed_serveAll_eq_some_iff.mpr ⟨before, _, after, rfl, hbefore, ⟨rfl, hmethod, ?_⟩, ?_⟩
  · exact hread.symm ▸ hsaid.once
  · exact hread.symm ▸ hsaid

/-- Every request is answered for what it is, and exactly the first redirect is handed over, so that
what is written as its query arrives. Its code is taken exactly where the state is the expected one
and no error is reported; an error is told with its description, or else by its name. -/
theorem Loopback.first_redirect_decides :
    (∀ visits : List Visit,
      List.Forall₂ Visit.IsAnswered visits (serveAll none visits).1 ∧
      (∀ r, (serveAll none visits).2 = some r ↔ ∃ before v after, visits = before ++ v :: after ∧
        (∀ u ∈ before, ¬u.IsRedirect) ∧ v.IsRedirect ∧ r.Says (Url.Form.decode v.query)) ∧
      ((serveAll none visits).2 = none ↔ ∀ v ∈ visits, ¬v.IsRedirect)) ∧
    (∀ (r : Redirect) (fields : Pairs) (before after : List Visit) (method : String),
      r.Says fields → (∀ u ∈ before, ¬u.IsRedirect) → method = "GET" ∨ method = "HEAD" →
        (serveAll none
          (before ++ ⟨method, route, Text.bytes (Url.Form.encode fields)⟩ :: after)).2 = some r) ∧
    ∀ (r : Redirect) (expected : String),
      (∀ code, r.code = some code → code ≠ "" → ∀ taken, r.codeFor expected = .ok taken ↔
        taken = code ∧ r.state = some expected ∧ (∀ e ∈ r.error, e = "") ∧
          ∀ d ∈ r.errorDescription, d = "") ∧
      (∀ d ∈ r.errorDescription, d ≠ "" → r.codeFor expected = .error (.loginRejected d)) ∧
      ∀ e ∈ r.error, e ≠ "" → (∀ d ∈ r.errorDescription, d = "") →
        r.codeFor expected = .error (.loginRejected e) := by
  refine ⟨fun visits => ⟨isAnswered_serveAll, fun r => handed_serveAll_eq_some_iff,
    handed_serveAll_eq_none_iff⟩, fun r fields before after method => handed_serveAll_encode,
    fun r expected => ⟨fun code hcode hne taken => ?_, fun d => Redirect.codeFor_of_description,
      fun e => Redirect.codeFor_of_error⟩⟩
  rw [Redirect.codeFor_eq_ok_iff, Redirect.isError_eq_false_iff, hcode, Option.some.injEq]
  constructor
  · rintro ⟨hnone, hstate, rfl, -⟩
    exact ⟨rfl, hstate, hnone⟩
  · rintro ⟨rfl, hstate, hnone⟩
    exact ⟨hnone, hstate, rfl, hne⟩

/-- A request for an icon and a repeated code do not count; signs that part a query do no harm. -/
theorem Loopback.first_redirect_decides_after_repeated :
    let fields : Pairs := [("state", "s 1"), ("scope", "x"), ("error", ""), ("code", "a&b=c+%20é")]
    let r : Redirect := { code := "a&b=c+%20é", state := "s 1", error := "" }
    let refused : Redirect := { error := "access_denied", errorDescription := "" }
    let before : List Visit :=
      [⟨"GET", Text.bytes "/favicon.ico", []⟩, ⟨"GET", route, Text.bytes "code=1&code=2"⟩]
    let after : List Visit := [⟨"GET", route, Text.bytes "code=other&state=s+1"⟩]
    (serveAll none
        (before ++ ⟨"GET", route, Text.bytes (Url.Form.encode fields)⟩ :: after)).2 = some r ∧
      r.codeFor "s 1" = .ok "a&b=c+%20é" ∧
      refused.codeFor "s 1" = .error (.loginRejected "access_denied") := by
  intro fields r refused before after
  obtain ⟨-, harrives, htaken⟩ := first_redirect_decides
  have hbefore : ∀ u ∈ before, ¬u.IsRedirect := by
    intro u hu hredirect
    rcases List.mem_pair.mp hu with rfl | rfl
    · exact absurd hredirect.path (by decide)
    · exact absurd hredirect.once (by decide +kernel)
  have hsaid : r.Says fields := by constructor <;> decide
  refine ⟨harrives r fields before after "GET" hsaid hbefore (.inl rfl), ?_, ?_⟩
  · exact ((htaken r "s 1").1 _ rfl (by decide) _).mpr ⟨rfl, rfl, by simp [r], by simp [r]⟩
  · exact (htaken refused "s 1").2.2 _ rfl (by decide) (by simp [refused])

end AccountGate.Account
