import AccountGate.Json.Printer
import AccountGate.Json.Reader

/-!
Stored settings: a finite map of texts. Main statements: a look-up after an insertion, and two
settings that answer every look-up alike are equal.
-/

namespace AccountGate.Account

abbrev Entries := List (String × String)

namespace Entries

/-- Strictly ascending keys. -/
def Sorted (es : Entries) : Prop := es.Pairwise fun a b => a.1 < b.1

def find? (key : String) : Entries → Option String
  | [] => none
  | (k, v) :: rest => if key = k then some v else find? key rest

/-- Puts an entry where its key belongs, in place of one with the same key. -/
def insert (key value : String) : Entries → Entries
  | [] => [(key, value)]
  | (k, v) :: rest =>
    if key = k then (key, value) :: rest
    else if key < k then (key, value) :: (k, v) :: rest
    else (k, v) :: insert key value rest

theorem find?_insert (key value other : String) (es : Entries) :
    find? other (insert key value es) = if other = key then some value else find? other es := by
  induction es with
  | nil => simp [insert, find?]
  | cons e rest ih =>
    obtain ⟨k, v⟩ := e
    by_cases h : key = k
    · subst h
      by_cases ho : other = key <;> simp [insert, find?, ho]
    · by_cases hlt : key < k
      · simp [insert, find?, h, hlt]
      · by_cases ho : other = k
        · simp [insert, find?, h, hlt, ho]
          intro e
          exact absurd e.symm h
        · simp [insert, find?, h, hlt, ho, ih]

theorem mem_insert {key value : String} {es : Entries} {e : String × String}
    (h : e ∈ insert key value es) : e = (key, value) ∨ e ∈ es := by
  induction es with
  | nil => simpa [insert] using h
  | cons f rest ih =>
    obtain ⟨k, v⟩ := f
    rw [insert] at h
    split at h
    · simp only [List.mem_cons] at h ⊢
      exact h.imp_right .inr
    · split at h
      · simpa using h
      · simp only [List.mem_cons] at h ⊢
        rcases h with h | h
        · exact .inr (.inl h)
        · exact (ih h).imp_right .inr

theorem lt_of_ne_of_not_lt {a b : String} (hne : a ≠ b) (hlt : ¬ a < b) : b < a := by
  rcases Std.le_total (a := a) (b := b) with h | h
  · exact absurd (Std.lt_of_le_of_ne h hne) hlt
  · exact Std.lt_of_le_of_ne h (Ne.symm hne)

theorem sorted_insert {key value : String} {es : Entries} (h : Sorted es) :
    Sorted (insert key value es) := by
  induction es with
  | nil => simp [insert, Sorted]
  | cons e rest ih =>
    obtain ⟨k, v⟩ := e
    obtain ⟨hk, hrest⟩ := List.pairwise_cons.mp h
    rw [insert]
    split
    · rename_i heq
      subst heq
      exact List.pairwise_cons.mpr ⟨hk, hrest⟩
    · rename_i hne
      split
      · rename_i hlt
        refine List.pairwise_cons.mpr ⟨fun e he => ?_, h⟩
        rcases List.mem_cons.mp he with rfl | he
        · exact hlt
        · exact String.lt_trans hlt (hk e he)
      · rename_i hlt
        refine List.pairwise_cons.mpr ⟨fun e he => ?_, ih hrest⟩
        rcases mem_insert he with rfl | he
        · exact lt_of_ne_of_not_lt hne hlt
        · exact hk e he

theorem find?_eq_none {key : String} {es : Entries} (h : ∀ e ∈ es, key < e.1) :
    find? key es = none := by
  induction es with
  | nil => rfl
  | cons e rest ih =>
    obtain ⟨k, v⟩ := e
    have : ¬ key = k := fun heq => String.lt_irrefl k (heq ▸ h (k, v) (by simp))
    simp only [find?, this, if_false]
    exact ih fun e he => h e (List.mem_cons_of_mem _ he)

theorem find?_cons_of_lt {key l w : String} {es : Entries} (hlt : key < l)
    (hl : ∀ e ∈ es, l < e.1) : find? key ((l, w) :: es) = none := by
  refine find?_eq_none fun e he => ?_
  rcases List.mem_cons.mp he with rfl | he
  · exact hlt
  · exact String.lt_trans hlt (hl e he)

theorem eq_of_find?_eq {xs ys : Entries} (hx : Sorted xs) (hy : Sorted ys)
    (h : ∀ key, find? key xs = find? key ys) : xs = ys := by
  induction xs generalizing ys with
  | nil =>
    cases ys with
    | nil => rfl
    | cons e ys => simpa [find?] using h e.1
  | cons e xs ih =>
    obtain ⟨k, v⟩ := e
    obtain ⟨hk, hxs⟩ := List.pairwise_cons.mp hx
    cases ys with
    | nil => simpa [find?] using h k
    | cons f ys =>
      obtain ⟨l, w⟩ := f
      obtain ⟨hl, hys⟩ := List.pairwise_cons.mp hy
      have hkl : k = l := by
        apply Classical.byContradiction
        intro hne
        by_cases hlt : k < l
        · have hf := h k
          rw [find?_cons_of_lt hlt hl] at hf
          simp [find?] at hf
        · have hf := h l
          rw [find?_cons_of_lt (lt_of_ne_of_not_lt hne hlt) hk] at hf
          simp [find?] at hf
      subst hkl
      have hv : v = w := by simpa [find?] using h k
      subst hv
      refine congrArg _ (ih hxs hys fun key => ?_)
      by_cases hkey : key = k
      · subst hkey
        rw [find?_eq_none hk, find?_eq_none hl]
      · simpa [find?, hkey] using h key

end Entries

structure Settings where
  entries : Entries
  sorted : entries.Sorted

namespace Settings

instance : DecidableEq Settings := fun a b =>
  decidable_of_iff (a.entries = b.entries)
    ⟨fun h => by cases a; cases b; simpa using h, fun h => h ▸ rfl⟩

def empty : Settings := ⟨[], by simp [Entries.Sorted]⟩

instance : Inhabited Settings := ⟨empty⟩

def get? (s : Settings) (key : String) : Option String := s.entries.find? key

def insert (s : Settings) (key value : String) : Settings :=
  ⟨s.entries.insert key value, Entries.sorted_insert s.sorted⟩

/-- The changes win, the last of them over the others. -/
def merge (s : Settings) (changes : Entries) : Settings :=
  changes.foldl (fun s change => s.insert change.1 change.2) s

def ofEntries (entries : Entries) : Settings := empty.merge entries

/-- A stored value; an empty one counts as none. -/
def value? (s : Settings) (key : String) : Option String :=
  (s.get? key).filter fun v => !v.isEmpty

/-- A stored value, or the empty text. -/
def value (s : Settings) (key : String) : String := (s.value? key).getD ""

theorem ext {a b : Settings} (h : ∀ key, a.get? key = b.get? key) : a = b := by
  have := Entries.eq_of_find?_eq a.sorted b.sorted h
  cases a
  cases b
  simpa using this

theorem get?_insert (s : Settings) (key value other : String) :
    (s.insert key value).get? other = if other = key then some value else s.get? other :=
  Entries.find?_insert key value other s.entries

/-- The text that is stored. -/
def render (s : Settings) : String := Json.renderTexts s.entries

def textMember? : String × Json → Option (String × String)
  | (name, .text value) => some (name, value)
  | _ => none

/-- Reads a map of texts. -/
def parse? (bs : Bytes) : Option Settings := do
  let members ← Json.parseMembers? bs
  let entries ← members.mapM textMember?
  return ofEntries entries

end Settings

namespace Key

/-! The keys under which the account is stored. -/

def userId : String := "user_id"
def firstName : String := "first_name"
def lastName : String := "last_name"
def email : String := "email"
def roles : String := "roles"
def accessToken : String := "access_token"
def updateToken : String := "update_token"
def expiresIn : String := "expires_in"
def supported : String := "supported"
def startDate : String := "start_date"
def endDate : String := "end_date"
def sign : String := "sign"

end Key

end AccountGate.Account
