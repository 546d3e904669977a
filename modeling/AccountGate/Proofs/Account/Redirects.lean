import AccountGate.Account.Redirect
import AccountGate.Proofs.Url.Form

/-!
What a redirect says. Main statements: a query is read as one exactly where each of its parts comes
at most once; and a code is taken exactly where no error is reported and the state is echoed.
-/

namespace AccountGate.Account

open Url.Form (Pairs values values_append values_singleton)

/-- The pairs of a query say what a redirect says, each thing at most once. -/
structure Redirect.Says (r : Redirect) (pairs : Pairs) : Prop where
  code : values "code" pairs = r.code.toList
  state : values "state" pairs = r.state.toList
  error : values "error" pairs = r.error.toList
  errorDescription : values "error_description" pairs = r.errorDescription.toList

variable {r r' : Redirect} {pairs : Pairs}

theorem Redirect.Says.take (h : r.Says pairs) {p : String × String} (hp : r.take p = some r') :
    r'.Says (pairs ++ [p]) := by
  obtain ⟨name, value⟩ := p
  obtain ⟨hcode, hstate, herror, hdescription⟩ := h
  have hfirst {field : Option String} {f : String → Redirect}
      (h : (if field.isNone then some (f value) else none) = some r') :
      field = none ∧ r' = f value := by
    cases field with
    | none => exact ⟨rfl, (Option.some.inj h).symm⟩
    | some old => exact absurd h (by simp)
  simp only [Redirect.take] at hp
  split at hp
  · next hname =>
    obtain ⟨hnone, rfl⟩ := hfirst (f := fun v => { r with code := v }) hp
    constructor <;> simp [values_append, values_singleton, *]
  · split at hp
    · next hname =>
      obtain ⟨hnone, rfl⟩ := hfirst (f := fun v => { r with state := v }) hp
      constructor <;> simp [values_append, values_singleton, *]
    · split at hp
      · next hname =>
        obtain ⟨hnone, rfl⟩ := hfirst (f := fun v => { r with error := v }) hp
        constructor <;> simp [values_append, values_singleton, *]
      · split at hp
        · next hname =>
          obtain ⟨hnone, rfl⟩ := hfirst (f := fun v => { r with errorDescription := v }) hp
          constructor <;> simp [values_append, values_singleton, *]
        · obtain rfl := Option.some.inj hp
          constructor <;> simp [values_append, values_singleton, *]

/-- Whatever query there was. -/
theorem Redirect.says_ofQuery? {query : Bytes} (h : Redirect.ofQuery? query = some r) :
    r.Says (Url.Form.decode query) := by
  have hfold (before rest : Pairs) {r₀ : Redirect} (h₀ : r₀.Says before)
      (h : rest.foldlM Redirect.take r₀ = some r) : r.Says (before ++ rest) := by
    induction rest generalizing before r₀ with
    | nil =>
      obtain rfl := Option.some.inj h
      rwa [List.append_nil]
    | cons p rest ih =>
      rw [List.foldlM_cons] at h
      obtain ⟨r₁, htake, h⟩ := Option.bind_eq_some_iff.mp h
      simpa using ih (before ++ [p]) (h₀.take htake) h
  exact hfold [] _ ⟨rfl, rfl, rfl, rfl⟩ h

/-- The names under which a redirect says something. -/
def Redirect.names : List String := ["code", "state", "error", "error_description"]

/-- None of the names comes twice. -/
def Redirect.Once (pairs : Pairs) : Prop :=
  ∀ name ∈ Redirect.names, (values name pairs).length ≤ 1

instance : Decidable (Redirect.Once pairs) :=
  inferInstanceAs (Decidable (∀ name ∈ Redirect.names, _))

theorem Redirect.Says.once (h : r.Says pairs) : Redirect.Once pairs := by
  have hone (field : Option String) : field.toList.length ≤ 1 := by cases field <;> simp
  intro name hname
  simp only [Redirect.names, List.mem_cons, List.not_mem_nil, or_false] at hname
  rcases hname with rfl | rfl | rfl | rfl
  · rw [h.code]; exact hone _
  · rw [h.state]; exact hone _
  · rw [h.error]; exact hone _
  · rw [h.errorDescription]; exact hone _

theorem Redirect.Says.unique (h : r.Says pairs) (h' : r'.Says pairs) : r = r' := by
  have hfield {field field' : Option String} (h : field.toList = field'.toList) :
      field = field' := by
    simpa using congrArg List.head? h
  obtain ⟨code, state, error, description⟩ := r
  obtain ⟨code', state', error', description'⟩ := r'
  obtain rfl : code = code' := hfield (h.code.symm.trans h'.code)
  obtain rfl : state = state' := hfield (h.state.symm.trans h'.state)
  obtain rfl : error = error' := hfield (h.error.symm.trans h'.error)
  obtain rfl : description = description' :=
    hfield (h.errorDescription.symm.trans h'.errorDescription)
  rfl

/-- A pair is refused only where its name comes twice with it. -/
theorem Redirect.Says.exists_take (h : r.Says pairs) {p : String × String}
    (honce : Redirect.Once (pairs ++ [p])) : ∃ r', r.take p = some r' := by
  obtain ⟨name, value⟩ := p
  have hnone {field : Option String} (hmem : name ∈ Redirect.names)
      (hfield : values name pairs = field.toList) : field.isNone = true := by
    have hlength := honce name hmem
    rw [values_append, values_singleton, if_pos rfl, hfield] at hlength
    cases field with
    | none => rfl
    | some old => simp at hlength
  simp only [Redirect.take]
  split
  · next hname =>
    subst hname
    exact ⟨_, if_pos (hnone (by decide) h.code)⟩
  · split
    · next hname =>
      subst hname
      exact ⟨_, if_pos (hnone (by decide) h.state)⟩
    · split
      · next hname =>
        subst hname
        exact ⟨_, if_pos (hnone (by decide) h.error)⟩
      · split
        · next hname =>
          subst hname
          exact ⟨_, if_pos (hnone (by decide) h.errorDescription)⟩
        · exact ⟨r, rfl⟩

theorem Redirect.Once.of_append {more : Pairs} (h : Redirect.Once (pairs ++ more)) :
    Redirect.Once pairs := by
  intro name hname
  have hlength := h name hname
  rw [values_append, List.length_append] at hlength
  omega

/-- A query is read exactly where it has none of the names twice, and read as what it says. -/
theorem Redirect.ofQuery?_eq_some_iff {query : Bytes} :
    Redirect.ofQuery? query = some r ↔ r.Says (Url.Form.decode query) := by
  refine ⟨Redirect.says_ofQuery?, fun h => ?_⟩
  have hfold (before rest : Pairs) {r₀ : Redirect} (h₀ : r₀.Says before)
      (honce : Redirect.Once (before ++ rest)) :
      ∃ r', rest.foldlM Redirect.take r₀ = some r' := by
    induction rest generalizing before r₀ with
    | nil => exact ⟨r₀, rfl⟩
    | cons p rest ih =>
      rw [List.append_cons] at honce
      obtain ⟨r₁, htake⟩ := h₀.exists_take honce.of_append
      obtain ⟨r', hr'⟩ := ih (before ++ [p]) (h₀.take htake) honce
      exact ⟨r', by rw [List.foldlM_cons, htake]; exact hr'⟩
  obtain ⟨r', hr'⟩ : ∃ r', Redirect.ofQuery? query = some r' :=
    hfold [] _ ⟨rfl, rfl, rfl, rfl⟩ h.once
  rw [hr', h.unique (Redirect.says_ofQuery? hr')]

/-- Some redirect is said wherever none of the names comes twice. -/
theorem Redirect.exists_says_iff : (∃ r : Redirect, r.Says pairs) ↔ Redirect.Once pairs := by
  refine ⟨fun ⟨_, h⟩ => h.once, fun h => ?_⟩
  have hfield {name : String} (hname : name ∈ Redirect.names) :
      values name pairs = (values name pairs).head?.toList := by
    have hlength := h name hname
    match values name pairs, hlength with
    | [], _ => rfl
    | [_], _ => rfl
  exact ⟨⟨_, _, _, _⟩, hfield (by decide), hfield (by decide), hfield (by decide),
    hfield (by decide)⟩

theorem Redirect.isError_eq_false_iff : r.isError = false ↔
    (∀ e ∈ r.error, e = "") ∧ ∀ d ∈ r.errorDescription, d = "" := by
  have hempty (s : Option String) : Redirect.isFilled s = false ↔ ∀ t ∈ s, t = "" := by
    cases s <;> simp [Redirect.isFilled, Option.filter]
  rw [Redirect.isError, Bool.or_eq_false_iff, hempty, hempty]

theorem Redirect.codeFor_eq_ok_iff {expected code : String} :
    r.codeFor expected = .ok code ↔
      r.isError = false ∧ r.state = some expected ∧ r.code = some code ∧ code ≠ "" := by
  have hfilled : (r.code.filter fun c => !c.isEmpty) = some code ↔
      r.code = some code ∧ code ≠ "" := by
    rw [Option.filter_eq_some_iff]
    simp
  rw [Redirect.codeFor]
  cases herror : r.isError with
  | true => simp
  | false =>
    by_cases hstate : r.state = some expected
    · rw [← hfilled]
      cases r.code.filter fun c => !c.isEmpty <;> simp [hstate]
    · simp [hstate]

/-- What is reported is the description, unless it is empty. -/
theorem Redirect.codeFor_of_description {expected description : String}
    (h : r.errorDescription = some description) (hne : description ≠ "") :
    r.codeFor expected = .error (.loginRejected description) := by
  have herror : r.isError = true := by
    simp [Redirect.isError, Redirect.isFilled, h, Option.filter, hne]
  simp [Redirect.codeFor, herror, h, Option.filter, hne]

theorem Redirect.codeFor_of_error {expected error : String} (h : r.error = some error)
    (hne : error ≠ "") (hdescription : ∀ d ∈ r.errorDescription, d = "") :
    r.codeFor expected = .error (.loginRejected error) := by
  have herror : r.isError = true := by
    simp [Redirect.isError, Redirect.isFilled, h, Option.filter, hne]
  have hnone : (r.errorDescription.filter fun d => !d.isEmpty) = none := by
    rw [Option.filter_eq_none_iff]
    intro d hd
    simp [hdescription d hd]
  simp [Redirect.codeFor, herror, hnone, h]

end AccountGate.Account
