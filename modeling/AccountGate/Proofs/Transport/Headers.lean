import AccountGate.Transport.Delivery
import Mathlib.Tactic.Common

/-!
What goes out under each name. Main statements: the credentials of a request are its own, or else
those that were found for it, and no others; under any other name it carries what was configured
last, or else its own; and an illegal entry of the configuration might as well not be there.
-/

namespace AccountGate

namespace Headers

variable {name other value : String} {hs configured : Headers}

/-- The headers of one name. -/
def under (name : String) (hs : Headers) : Headers := hs.filter fun h => h.1 == name

/-- The values under a name, in their order. -/
def values (name : String) (hs : Headers) : List String := (under name hs).map Prod.snd

theorem under_put_self (name value : String) (hs : Headers) :
    under name (put name value hs) = [(name, value)] := by
  have hnone : (hs.filter fun h => h.1 != name).filter (fun h => h.1 == name) = [] := by
    rw [List.filter_filter]
    simp
  rw [under, put, List.filter_append, hnone]
  simp

theorem under_put_of_ne (h : other ≠ name) (value : String) (hs : Headers) :
    under other (put name value hs) = under other hs := by
  have hkept : ∀ a ∈ hs, (a.1 == other && a.1 != name) = (a.1 == other) := by
    intro a _
    by_cases ha : a.1 = other
    · simp [ha, h]
    · simp [ha]
  rw [under, put, List.filter_append, List.filter_filter, List.filter_congr hkept]
  simp [under, Ne.symm h]

theorem find?_isSome_iff : (find? name hs).isSome = true ↔ under name hs ≠ [] := by
  induction hs with
  | nil => simp [find?, under]
  | cons h hs ih =>
    by_cases hname : h.1 = name
    · simp [find?, under, hname]
    · have hne : (name == h.1) = false := beq_false_of_ne (Ne.symm hname)
      have hrest : under name (h :: hs) = under name hs := List.filter_cons_of_neg (by simpa)
      rw [find?, List.lookup_cons, hne, hrest]
      exact ih

theorem values_ne_nil_iff : values name hs ≠ [] ↔ (find? name hs).isSome = true := by
  rw [find?_isSome_iff, values, ne_eq, List.map_eq_nil_iff]

/-- A header that is put in only where there is none of its name. -/
theorem values_default (name value : String) (hs : Headers) (other : String) :
    values other (if (find? name hs).isSome then hs else put name value hs) =
      if other = name ∧ values other hs = [] then [value] else values other hs := by
  by_cases hname : other = name
  · subst hname
    by_cases hsome : (find? other hs).isSome = true
    · have hvalues : values other hs ≠ [] := values_ne_nil_iff.mpr hsome
      rw [if_pos hsome, if_neg fun h => hvalues h.2]
    · have hvalues : values other hs = [] := not_not.mp (mt values_ne_nil_iff.mp hsome)
      rw [if_neg hsome, if_pos ⟨rfl, hvalues⟩, values, under_put_self]
      rfl
  · have hother : ¬ (other = name ∧ values other hs = []) := fun h => hname h.1
    rw [if_neg hother]
    split
    · rfl
    · rw [values, under_put_of_ne hname]
      rfl

section Configured

/-- An entry of the configuration that can be put into a request. -/
def isLegalEntry (entry : String × String) : Bool :=
  (legalName? entry.1).isSome && isLegalValue entry.2

/-- What an entry of the configuration sets a header to. -/
def setting? (name : String) (entry : String × String) : Option String :=
  if legalName? entry.1 = some name ∧ isLegalValue entry.2 = true then some entry.2 else none

/-- What the configuration sets a header to: of several entries the last one counts. -/
def lastSetting? (name : String) (configured : Headers) : Option String :=
  configured.reverse.findSome? (setting? name)

theorem putConfigured_of_illegal {entry : String × String} (h : isLegalEntry entry = false)
    (hs : Headers) : putConfigured hs entry = hs := by
  unfold putConfigured
  split
  · next name hname =>
    have hvalue : isLegalValue entry.2 = false := by simpa [isLegalEntry, hname] using h
    exact if_neg fun hlegal => absurd (hvalue.symm.trans hlegal.2) (by simp)
  · rfl

/-- Illegal entries have no effect on what the others do. -/
theorem foldl_putConfigured_filter (configured hs : Headers) :
    (configured.filter isLegalEntry).foldl putConfigured hs = configured.foldl putConfigured hs := by
  rw [List.foldl_filter]
  refine congrArg (fun f => configured.foldl f hs) (funext fun hs => funext fun entry => ?_)
  split
  · rfl
  · next h => exact (putConfigured_of_illegal (by simpa using h) hs).symm

theorem under_putConfigured_authorizationName (hs : Headers) (entry : String × String) :
    under authorizationName (putConfigured hs entry) = under authorizationName hs := by
  unfold putConfigured
  split
  · split
    · next h => exact under_put_of_ne (Ne.symm h.1) _ _
    · rfl
  · rfl

/-- One entry of the configuration, under a name that is not that of credentials. -/
theorem values_putConfigured (h : name ≠ authorizationName) (hs : Headers)
    (entry : String × String) : values name (putConfigured hs entry) =
      match setting? name entry with
      | some value => [value]
      | none => values name hs := by
  by_cases hset : legalName? entry.1 = some name ∧ isLegalValue entry.2 = true
  · have hput : putConfigured hs entry = put name entry.2 hs := by
      simp [putConfigured, hset.1, hset.2, h]
    rw [hput, setting?, if_pos hset, values, under_put_self]
    rfl
  · rw [setting?, if_neg hset]
    unfold putConfigured
    split
    · next found hfound =>
      split
      · next hlegal =>
        -- The entry is legal, so its name is another one.
        have hne : name ≠ found := fun heq => hset ⟨heq ▸ hfound, hlegal.2⟩
        rw [values, under_put_of_ne hne]
        rfl
      · rfl
    · rfl

theorem values_foldl_putConfigured (h : name ≠ authorizationName) (configured hs : Headers) :
    values name (configured.foldl putConfigured hs) =
      match lastSetting? name configured with
      | some value => [value]
      | none => values name hs := by
  induction configured generalizing hs with
  | nil => rfl
  | cons entry rest ih =>
    rw [List.foldl_cons, ih, lastSetting?, lastSetting?, List.reverse_cons, List.findSome?_append,
      values_putConfigured h]
    cases rest.reverse.findSome? (setting? name) with
    | some value => rfl
    | none =>
      rw [Option.none_or, List.findSome?_singleton]

end Configured

section Credentials

/-- The headers with credentials. -/
def credentials (hs : Headers) : Headers := hs.filter fun h => h.1 == authorizationName

theorem credentials_eq_under (hs : Headers) : credentials hs = under authorizationName hs := rfl

theorem credentials_foldl_putConfigured (configured hs : Headers) :
    credentials (configured.foldl putConfigured hs) = credentials hs := by
  induction configured generalizing hs with
  | nil => rfl
  | cons entry rest ih =>
    rw [List.foldl_cons, ih]
    exact under_putConfigured_authorizationName hs entry

theorem credentials_outgoing (configured sender : Headers) (found : Option String) :
    credentials (outgoing configured sender found) =
      if credentials sender = [] then found.toList.map fun value => (authorizationName, value)
      else credentials sender := by
  have hmerged := credentials_foldl_putConfigured configured sender
  by_cases h : credentials sender = []
  · rw [if_pos h]
    rw [h] at hmerged
    have hnone : ¬ (find? authorizationName (configured.foldl putConfigured sender)).isSome :=
      mt find?_isSome_iff.mp (not_not.mpr hmerged)
    cases found with
    | none => exact hmerged
    | some value =>
      simp only [outgoing, if_neg hnone]
      exact under_put_self _ value _
  · rw [if_neg h]
    have hsome : (find? authorizationName (configured.foldl putConfigured sender)).isSome = true :=
      find?_isSome_iff.mpr (by rwa [← credentials_eq_under, hmerged])
    cases found with
    | none => exact hmerged
    | some value =>
      simp only [outgoing, if_pos hsome]
      exact hmerged

end Credentials

/-- Credentials that were found change nothing under other names. -/
theorem values_outgoing (h : name ≠ authorizationName) (configured sender : Headers)
    (found : Option String) : values name (outgoing configured sender found) =
      match lastSetting? name configured with
      | some value => [value]
      | none => values name sender := by
  rw [← values_foldl_putConfigured h]
  unfold outgoing
  cases found with
  | none => rfl
  | some value =>
    dsimp only
    split
    · rfl
    · rw [values, under_put_of_ne h]
      rfl

end Headers

open Headers

theorem Request.hasAuthorization_eq_false_iff {r : Request} :
    r.hasAuthorization = false ↔ credentials r.headers = [] := by
  simp [hasAuthorization, credentials, authorizationName]

theorem Request.hasAuthorization_iff {r : Request} :
    r.hasAuthorization = true ↔ values authorizationName r.headers ≠ [] := by
  rw [← Bool.not_eq_false, hasAuthorization_eq_false_iff, credentials_eq_under, values, ne_eq,
    List.map_eq_nil_iff]

namespace Transport

/-- The headers of a request before any is configured: a form says that it is one. -/
def ownHeaders (r : Request) : Headers :=
  match r.payload with
  | .plain headers _ => headers
  | .form _ => [(contentTypeName, formContentType)]

/-- The credentials that go out with a request: its own, or else those that were found. -/
theorem credentials_dispatch (p : Policy) (found : Option String) (r : Request) :
    credentials (dispatch p found r).headers =
      if r.hasAuthorization then credentials r.headers
      else found.toList.map fun value => (authorizationName, value) := by
  have hout : credentials (dispatch p found r).headers =
      credentials (outgoing p.headers r.headers found) := by
    rw [dispatch]
    split
    · rfl
    · dsimp only
      split
      · rfl
      · exact under_put_of_ne (by decide) _ _
  rw [hout, credentials_outgoing]
  by_cases h : r.hasAuthorization = true
  · rw [if_pos h, if_neg]
    intro hnone
    exact absurd (Request.hasAuthorization_eq_false_iff.mpr hnone) (by simp [h])
  · rw [if_neg h, if_pos (Request.hasAuthorization_eq_false_iff.mp (by simpa using h))]

theorem values_authorizationName_dispatch (p : Policy) (found : Option String) (r : Request) :
    values authorizationName (dispatch p found r).headers =
      if values authorizationName r.headers ≠ [] then values authorizationName r.headers
      else found.toList := by
  rw [values, ← credentials_eq_under, credentials_dispatch]
  by_cases hown : r.hasAuthorization = true
  · rw [if_pos hown, if_pos (Request.hasAuthorization_iff.mp hown)]
    rfl
  · rw [if_neg hown, if_neg (mt Request.hasAuthorization_iff.mpr hown)]
    cases found <;> rfl

/-- Under any other name goes out what was configured last, or else what the request has itself. -/
theorem values_dispatch {name : String} (h : name ≠ authorizationName) (p : Policy)
    (found : Option String) (r : Request) : values name (dispatch p found r).headers =
      match lastSetting? name p.headers with
      | some value => [value]
      | none => values name (ownHeaders r) := by
  unfold dispatch ownHeaders
  cases hpayload : r.payload with
  | plain headers body =>
    have hown : r.headers = headers := by rw [Request.headers, hpayload]
    rw [← hown]
    exact values_outgoing h _ _ _
  | form fields =>
    have hown : r.headers = [] := by rw [Request.headers, hpayload]
    rw [hown]
    rw [values_default, values_outgoing h]
    cases lastSetting? name p.headers with
    | some value => simp
    | none =>
      by_cases hname : name = contentTypeName
      · simp [values, under, hname]
      · simp [values, under, hname, Ne.symm hname]

theorem dispatch_filter_isLegalEntry (p : Policy) (found : Option String) (r : Request) :
    dispatch { p with headers := p.headers.filter isLegalEntry } found r = dispatch p found r := by
  have hout : outgoing (p.headers.filter isLegalEntry) r.headers found =
      outgoing p.headers r.headers found := by
    unfold outgoing
    rw [foldl_putConfigured_filter]
  unfold dispatch
  rw [hout]

end Transport

end AccountGate
