import AccountGate.Proofs.Account.Settled
import AccountGate.Proofs.Disk.Sparing
import AccountGate.Proofs.License.Binding
import AccountGate.Proofs.Text.Utf8

/-!
The keys of several clients below one directory. Main statement: what is read for a client is the
text that was stored for it last, whatever was refused or broke off and whatever was stored for
others; a key that has been stored is always one to check with; and each client has a directory of
its own right below the common one.
-/

namespace AccountGate

namespace Codec.Hex

def digits : List Char := "0123456789abcdef".toList

theorem mem_digits_of_mem_chars {bs : Bytes} {c : Char} (h : c ∈ chars bs) : c ∈ digits := by
  have hdigit : ∀ n < 16, digit n ∈ digits := by decide
  obtain ⟨b, -, hb⟩ := List.mem_flatMap.mp h
  have hbyte := b.toNat_lt
  rcases List.mem_pair.mp hb with rfl | rfl
  · exact hdigit _ (by omega)
  · exact hdigit _ (by omega)

end Codec.Hex

namespace License.KeyCache

open Account (isPlain_key isPlain_keyScratch keyScratchName toList_keyScratchName clientDir)
open Disk (BreaksOff IsPlain Spares)

/-- The name of the directory of a client. -/
def dirName (client : String) : String := Digest.Sha256.hex (Text.bytes client)

theorem clientDir_eq (base client : String) :
    clientDir base client = Disk.join base (dirName client) := rfl

theorem toList_dirName (client : String) :
    (dirName client).toList = Codec.Hex.chars (Digest.Sha256.digest (Text.bytes client)) := by
  rw [dirName, Digest.Sha256.hex, Codec.Hex.encode, String.toList_ofList]

/-- The name has 64 digits, whatever the id of the client is made of. -/
theorem dirName_digits (client : String) : (dirName client).length = 64 ∧
    ∀ c ∈ (dirName client).toList, c ∈ Codec.Hex.digits := by
  rw [← String.length_toList, toList_dirName, Codec.Hex.length_chars, Digest.Sha256.length_digest]
  exact ⟨rfl, fun c => Codec.Hex.mem_digits_of_mem_chars⟩

theorem isPlain_dirName (client : String) : IsPlain (dirName client) := by
  obtain ⟨hlength, hdigits⟩ := dirName_digits client
  have hne {name : String} (hname : name.length ≠ 64) : dirName client ≠ name := by
    rintro rfl
    exact hname hlength
  refine ⟨fun hslash => absurd (hdigits _ hslash) (by decide), ?_, hne (by decide)⟩
  rw [Disk.staysHere, Bool.or_eq_false_iff, Bool.eq_false_iff, ne_eq, String.isEmpty_iff]
  exact ⟨hne (by decide), beq_false_of_ne (hne (by decide))⟩

theorem keyScratchName_ne (serial : Nat) : keyScratchName serial ≠ fileName := by
  intro h
  have hstart : (keyScratchName serial).toList.take 1 = ['.'] := by
    rw [toList_keyScratchName]
    rfl
  rw [h] at hstart
  exact absurd hstart (by decide)

/-- The places where a key of a client may be. -/
def IsFor (client : String) (place : Disk.Place) : Prop := [dirName client, fileName] <:+ place

theorem IsFor.getLast?_eq {client : String} {place : Disk.Place} (h : IsFor client place) :
    place.getLast? = some fileName := by
  obtain ⟨front, rfl⟩ := h
  simp

/-- A place is for one client, up to the digest of its id. -/
theorem IsFor.dirName_eq {client other : String} {place : Disk.Place} (h : IsFor client place)
    (h' : IsFor other place) : dirName other = dirName client := by
  obtain ⟨front, rfl⟩ := h
  obtain ⟨front', heq⟩ := h'
  have hnames := (List.append_inj' heq (by simp)).2
  simpa using hnames

section Store

variable {d d' : Disk} {base dir client text : String} {serial : Nat} {place : Disk.Place}

theorem isFor_of_locate (h : d.locate (path (clientDir base client)) = .ok place) :
    IsFor client place :=
  Disk.suffix_locate (isPlain_dirName client) isPlain_key h

/-- A text that is stored holds a key, and is moved over the one before it. -/
theorem store_eq_ok (h : store d dir serial text = (.ok (), d')) :
    (Rsa.PublicKey.parse? text).isSome ∧ ∃ (made : Disk) (start place : Disk.Place),
      Disk.Grown d made ∧ made.locate (scratchPath dir serial) = .ok start ∧
      made.get? start ≠ some .directory ∧ made.locate (path dir) = .ok place ∧
      made.get? place ≠ some .directory ∧ Disk.moved made start place (Text.bytes text) = d' := by
  rw [store] at h
  split at h
  · exact absurd (Prod.mk.inj h).1 (by simp)
  · next hkey =>
    refine ⟨by simpa [Option.isSome_iff_ne_none] using hkey, ?_⟩
    split at h
    · exact absurd (Prod.mk.inj h).1 (by simp)
    · next made hmade =>
      split at h
      · exact absurd (Prod.mk.inj h).1 (by simp)
      · next written hwrite =>
        split at h
        · exact absurd (Prod.mk.inj h).1 (by simp)
        · next renamed hrename =>
          obtain rfl := (Prod.mk.inj h).2
          obtain ⟨start, place, hplaces⟩ :=
            (Disk.write_rename_iff (isPlain_keyScratch serial)).mp ⟨written, hwrite, hrename⟩
          exact ⟨made, start, place, Disk.grown_makeDirs hmade, hplaces⟩

/-- A text that is not stored breaks off, at whichever step. -/
theorem breaksOff_of_store {fault : KeyError} (h : store d dir serial text = (.error fault, d')) :
    BreaksOff (scratchPath dir serial) d d' := by
  rw [store] at h
  split at h
  · obtain rfl := (Prod.mk.inj h).2
    exact .making (.refl d)
  · split at h
    · obtain rfl := (Prod.mk.inj h).2
      exact .making (.refl d)
    · next made hmade =>
      have hgrown := Disk.grown_makeDirs hmade
      split at h
      · obtain rfl := (Prod.mk.inj h).2
        exact .making hgrown
      · next written hwrite =>
        obtain ⟨start, hl, hfree, rfl⟩ := Disk.write_eq_ok_iff.mp hwrite
        split at h
        · obtain rfl := (Prod.mk.inj h).2
          exact .writing hgrown hl hfree _
        · exact absurd (Prod.mk.inj h).1 (by simp)

theorem look_of_store (h : store d dir serial text = (.ok (), d')) :
    d'.look (path dir) = .ok (.file (Text.bytes text)) := by
  obtain ⟨-, made, start, place, -, hl, hfree, hplace, hfree', rfl⟩ := store_eq_ok h
  have hne := Disk.ne_nil_of_locate isPlain_key hplace
  have hspares : Spares (fun _ => False) made (Disk.moved made start place (Text.bytes text)) :=
    Disk.spares_moved (Disk.ne_nil_of_locate (isPlain_keyScratch serial) hl) hne hfree hfree'
      not_false not_false
  exact Disk.look_eq_ok_iff.mpr ⟨place, hspares.locate hplace, Disk.get?_moved_self hne⟩

/-- What is stored for one client leaves alone what is there for another. -/
theorem spares_of_store {other : String} (hne : dirName client ≠ dirName other)
    (h : store d (clientDir base client) serial text = (.ok (), d')) :
    Spares (IsFor other) d d' := by
  obtain ⟨-, made, start, place, hgrown, hl, hfree, hplace, hfree', rfl⟩ := store_eq_ok h
  have hlast := Disk.getLast?_locate (isPlain_keyScratch serial) hl
  have hfrom := Disk.ne_nil_of_locate (isPlain_keyScratch serial) hl
  have hto := Disk.ne_nil_of_locate isPlain_key hplace
  refine (hgrown.spares _).trans
    (Disk.spares_moved hfrom hto hfree hfree' (fun hstart => ?_) fun hother => ?_)
  · exact keyScratchName_ne serial (Option.some.inj (hlast.symm.trans hstart.getLast?_eq))
  · exact hne (hother.dirName_eq (isFor_of_locate hplace))

theorem spares_of_breaksOff (client : String) (h : BreaksOff (scratchPath dir serial) d d') :
    Spares (IsFor client) d d' := by
  refine h.spares (isPlain_keyScratch serial) fun place hplace hlast => ?_
  exact keyScratchName_ne serial (Option.some.inj (hlast.symm.trans hplace.getLast?_eq))

theorem load_of_look (h : d.look (path dir) = .ok (.file (Text.bytes text))) :
    load d dir = .ok text := by
  obtain ⟨place, hplace, hnode⟩ := Disk.look_eq_ok_iff.mp h
  exact Disk.readText_eq hplace hnode (Text.decode?_bytes text)

theorem exists_file_of_load (h : load d dir = .ok text) :
    ∃ data, d.look (path dir) = .ok (.file data) ∧ Text.decode? data = some text := by
  rw [load, Disk.readText, Disk.readBytes] at h
  cases hlook : d.look (path dir) with
  | error fault => simp [hlook] at h
  | ok node =>
    cases node with
    | directory => simp [hlook] at h
    | file data =>
      refine ⟨data, rfl, ?_⟩
      simp only [hlook] at h
      cases hdecode : Text.decode? data with
      | none => simp [hdecode] at h
      | some other => simpa [hdecode] using h

/-- What was read at places that are left alone is what is read. -/
theorem load_of_spares (h : Spares (IsFor client) d d')
    (hload : load d (clientDir base client) = .ok text) :
    load d' (clientDir base client) = .ok text := by
  obtain ⟨data, hlook, htext⟩ := exists_file_of_load hload
  obtain ⟨place, hplace, hnode⟩ :=
    Disk.look_eq_ok_iff.mp (h.look (fun place hl => isFor_of_locate hl) hlook)
  exact Disk.readText_eq hplace hnode htext

/-- Where no file is for a client, nothing is read for it. -/
theorem exists_error_of_load
    (h : ∀ place data, IsFor client place → d.get? place ≠ some (.file data)) :
    ∃ fault, load d (clientDir base client) = .error fault := by
  cases hload : load d (clientDir base client) with
  | error fault => exact ⟨fault, rfl⟩
  | ok text =>
    obtain ⟨data, hlook, -⟩ := exists_file_of_load hload
    obtain ⟨place, hl, hnode⟩ := Disk.look_eq_ok_iff.mp hlook
    exact absurd hnode (h place data (isFor_of_locate hl))

end Store

theorem check_of_load {key : Rsa.PublicKey} {text : String} {e : Entitlement} {today : Date}
    (hkey : Rsa.PublicKey.parse? text = some key) :
    check (.ok text) e today ≠ .rejected .malformedKey ∧
      ∀ detail, check (.ok text) e today ≠ .rejected (.keyUnavailable detail) := by
  have hblank : ¬ (Text.trim text).isEmpty := fun hblank =>
    absurd (hkey.symm.trans (Rsa.PublicKey.parse?_of_blank hblank)) (by simp)
  rw [check]
  split
  · next hc =>
    have hnot : e.supported = false := by simpa using hc
    simp [Entitlement.check, hnot]
  · constructor
    · intro h
      cases Entitlement.check_eq_iff_outcome.mp h with
      | malformedKey signature hc hd hs hk hp => exact absurd (hkey.symm.trans hp) (by simp)
    · intro detail h
      cases Entitlement.check_eq_iff_outcome.mp h with
      | noKey signature hc hd hs hk => exact hblank hk

/-- A call that has been made: for whom, with which text, and whether the text was stored. -/
structure Attempt where
  client : String
  text : String
  stored : Bool

/-- Whether a call stored a text where the key of a client is. -/
def Attempt.isFor (a : Attempt) (client : String) : Bool :=
  a.stored && dirName a.client == dirName client

/-- The text that was stored for a client last. -/
def lastStored (attempts : List Attempt) (client : String) : Option String :=
  (attempts.filter (Attempt.isFor · client)).getLast?.map Attempt.text

/-- A disk after some calls for clients below one directory, while nobody else writes there. -/
inductive Tried (base : String) (d : Disk) : List Attempt → Disk → Prop
  | start : Tried base d [] d
  | called {attempts : List Attempt} {e e' : Disk} (h : Tried base d attempts e)
      {client text : String} {serial : Nat} {result : Except KeyError Unit}
      (hstore : store e (clientDir base client) serial text = (result, e')) :
      Tried base d (attempts ++ [⟨client, text, result.isOk⟩]) e'
  /-- A fault that disks do not have here ends a call, at whichever step. -/
  | broken {attempts : List Attempt} {e e' : Disk} (h : Tried base d attempts e)
      (client text : String) {serial : Nat}
      (hends : BreaksOff (scratchPath (clientDir base client) serial) e e') :
      Tried base d (attempts ++ [⟨client, text, false⟩]) e'

/-- A call that stores nothing for a client leaves alone what is there for that client. -/
theorem spares_of_attempt {d d' : Disk} {base other text client : String} {serial : Nat}
    {result : Except KeyError Unit}
    (hstore : store d (clientDir base other) serial text = (result, d'))
    (hother : ¬ (Attempt.isFor ⟨other, text, result.isOk⟩ client) = true) :
    Spares (IsFor client) d d' := by
  cases result with
  | error fault => exact spares_of_breaksOff client (breaksOff_of_store hstore)
  | ok =>
    refine spares_of_store (fun heq => hother ?_) hstore
    simp [Attempt.isFor, heq, Except.isOk, Except.toBool]

theorem lastStored_snoc (attempts : List Attempt) (a : Attempt) (client : String) :
    lastStored (attempts ++ [a]) client =
      if a.isFor client then some a.text else lastStored attempts client := by
  rw [lastStored, List.filter_append]
  by_cases ha : a.isFor client
  · simp [ha]
  · simp [ha, lastStored]

/-- Where no two clients share a digest, it is the text that was stored for the client itself. -/
theorem lastStored_of_distinct {attempts : List Attempt} {client : String}
    (h : ∀ a ∈ attempts, dirName a.client = dirName client → a.client = client) :
    lastStored attempts client =
      (attempts.filter fun a => a.stored && a.client == client).getLast?.map Attempt.text := by
  rw [lastStored, List.filter_congr fun a ha => ?_]
  have hiff : (dirName a.client == dirName client) = (a.client == client) := by
    rw [Bool.eq_iff_iff, beq_iff_eq, beq_iff_eq]
    exact ⟨h a ha, congrArg dirName⟩
  rw [Attempt.isFor, hiff]

theorem isSome_lastStored {attempts : List Attempt} {client : String} {a : Attempt}
    (hmem : a ∈ attempts) (hstored : a.stored = true) (hclient : a.client = client) :
    (lastStored attempts client).isSome := by
  have hfor : a.isFor client = true := by simp [Attempt.isFor, hstored, hclient]
  rw [lastStored, Option.isSome_map, List.getLast?_isSome]
  exact List.ne_nil_of_mem (List.mem_filter.mpr ⟨hmem, hfor⟩)

namespace Tried

variable {base client text : String} {d e e' : Disk} {attempts : List Attempt}

theorem snoc (h : Tried base d attempts e) (client text : String) (serial : Nat) (stored : Bool)
    (hresult : (store e (clientDir base client) serial text).1.isOk = stored) :
    Tried base d (attempts ++ [⟨client, text, stored⟩])
      (store e (clientDir base client) serial text).2 := by
  subst hresult
  generalize hstore : store e (clientDir base client) serial text = outcome
  obtain ⟨result, e'⟩ := outcome
  exact h.called hstore

/-- Where nothing has been stored for a client, its places are as they were. -/
theorem spares (h : Tried base d attempts e) (hnone : lastStored attempts client = none) :
    Spares (IsFor client) d e := by
  induction h with
  | start => exact .refl _ d
  | @called attempts e e' h other text serial result hstore ih =>
    rw [lastStored_snoc] at hnone
    split at hnone
    · exact absurd hnone (by simp)
    · next hother => exact (ih hnone).trans (spares_of_attempt hstore hother)
  | broken h other text hends ih =>
    rw [lastStored_snoc] at hnone
    exact (ih hnone).trans (spares_of_breaksOff client hends)

/-- The text that was stored for a client last is a key, and is what is there. -/
theorem look_of_lastStored (h : Tried base d attempts e)
    (hlast : lastStored attempts client = some text) :
    (Rsa.PublicKey.parse? text).isSome ∧
      e.look (path (clientDir base client)) = .ok (.file (Text.bytes text)) := by
  have hkept {d d' : Disk} (hspares : Spares (IsFor client) d d')
      (hlook : d.look (path (clientDir base client)) = .ok (.file (Text.bytes text))) :
      d'.look (path (clientDir base client)) = .ok (.file (Text.bytes text)) :=
    hspares.look (fun place hl => isFor_of_locate hl) hlook
  induction h with
  | start => exact absurd hlast (by simp [lastStored])
  | @called attempts e e' h other text' serial result hstore ih =>
    rw [lastStored_snoc] at hlast
    split at hlast
    · next hfor =>
      obtain ⟨hstored, hsame⟩ := Bool.and_eq_true_iff.mp hfor
      obtain rfl := Option.some.inj hlast
      cases result with
      | error fault => exact absurd hstored (by simp [Except.isOk, Except.toBool])
      | ok =>
        have hdir : clientDir base other = clientDir base client := by
          rw [clientDir_eq, clientDir_eq, beq_iff_eq.mp hsame]
        rw [hdir] at hstore
        exact ⟨(store_eq_ok hstore).1, look_of_store hstore⟩
    · next hother =>
      obtain ⟨hkey, hlook⟩ := ih hlast
      exact ⟨hkey, hkept (spares_of_attempt hstore hother) hlook⟩
  | broken h other text' hends ih =>
    rw [lastStored_snoc] at hlast
    obtain ⟨hkey, hlook⟩ := ih hlast
    exact ⟨hkey, hkept (spares_of_breaksOff client hends) hlook⟩

end Tried

/-- What is read for a client is the text that was stored for it last; calls that were refused or
broke off do not count, nor those for clients with other digests. Before anything is stored, what
could be read stays, and where there is no file, nothing is read. A key that has been stored for a
client is never missing and never malformed when a claim is checked. The directory of a client is
right below the common one, and its name has 64 digits whatever the id is. -/
theorem stored_keys_are_kept {base : String} {d e : Disk} {attempts : List Attempt}
    (hrun : Tried base d attempts e) (client : String) :
    (∀ text, lastStored attempts client = some text →
      load e (clientDir base client) = .ok text) ∧
    (lastStored attempts client = none →
      (∀ text, load d (clientDir base client) = .ok text →
        load e (clientDir base client) = .ok text) ∧
      ((∀ place data, IsFor client place → d.get? place ≠ some (.file data)) →
        ∃ fault, load e (clientDir base client) = .error fault)) ∧
    ((∀ a ∈ attempts, dirName a.client = dirName client → a.client = client) →
      lastStored attempts client =
        (attempts.filter fun a => a.stored && a.client == client).getLast?.map Attempt.text) ∧
    ((∃ a ∈ attempts, a.stored = true ∧ a.client = client) → ∀ (claim : Entitlement) (today : Date),
      check (load e (clientDir base client)) claim today ≠ .rejected .malformedKey ∧
      ∀ detail, check (load e (clientDir base client)) claim today ≠
        .rejected (.keyUnavailable detail)) ∧
    (dirName client).length = 64 ∧ (∀ c ∈ (dirName client).toList, c ∈ Codec.Hex.digits) ∧
    ∀ (d : Disk) (place : Disk.Place), d.locate (clientDir base client) = .ok place →
      ∃ parent, place = parent ++ [dirName client] ∧ d.get? parent = some .directory ∧
        (Disk.Rooted d.home base → d.locate (Disk.join base ".") = .ok parent) := by
  refine ⟨fun text hlast => load_of_look (hrun.look_of_lastStored hlast).2, fun hnone => ?_,
    lastStored_of_distinct, ?_, (dirName_digits client).1, (dirName_digits client).2,
    fun d place => Disk.exists_parent_of_locate (isPlain_dirName client)⟩
  · have hspares := hrun.spares hnone
    refine ⟨fun text => load_of_spares hspares, fun hnew => exists_error_of_load ?_⟩
    exact fun place data hplace => hspares.get?_ne_file hplace (hnew place data hplace)
  · rintro ⟨a, hmem, hstored, hclient⟩ claim today
    obtain ⟨text, hlast⟩ := Option.isSome_iff_exists.mp (isSome_lastStored hmem hstored hclient)
    obtain ⟨hkey, hlook⟩ := hrun.look_of_lastStored hlast
    obtain ⟨key, hkey⟩ := Option.isSome_iff_exists.mp hkey
    rw [load_of_look hlook]
    exact check_of_load hkey

theorem store_of_no_key {d : Disk} {dir text : String} {serial : Nat}
    (h : Rsa.PublicKey.parse? text = none) : store d dir serial text = (.error .malformed, d) := by
  rw [store, h]
  rfl

section Sample

open Entitlement (sampleKeyText parse?_sampleKeyText)

set_option maxRecDepth 10000

/-- A key stays through a text that is refused. -/
theorem sample_key_is_kept : ∃ e, Tried "/cfg" ⟨"/", []⟩
      [⟨"../b", sampleKeyText, true⟩, ⟨"../b", "no key", false⟩] e ∧
    load e (clientDir "/cfg" "../b") = .ok sampleKeyText ∧
    ∀ (claim : Entitlement) (today : Date),
      check (load e (clientDir "/cfg" "../b")) claim today ≠ .rejected .malformedKey := by
  have hnone : Rsa.PublicKey.parse? "no key" = none := by decide +kernel
  have hstart : Tried "/cfg" ⟨"/", []⟩ [] ⟨"/", []⟩ := .start
  have hfirst := hstart.snoc "../b" sampleKeyText 0 true (by
    simp only [store, parse?_sampleKeyText]
    decide +kernel)
  have hrefused (d : Disk) :
      store d (clientDir "/cfg" "../b") 1 "no key" = (.error .malformed, d) :=
    store_of_no_key hnone
  have hrun := hfirst.called (hrefused _)
  have hlast : lastStored [⟨"../b", sampleKeyText, true⟩, ⟨"../b", "no key", false⟩] "../b" =
      some sampleKeyText := by
    simp [lastStored, Attempt.isFor]
  obtain ⟨hload, -, -, hcheck, -⟩ := stored_keys_are_kept hrun "../b"
  refine ⟨_, hrun, hload _ hlast, fun claim today => ?_⟩
  exact (hcheck ⟨_, List.mem_cons_self, rfl, rfl⟩ claim today).1

end Sample

end License.KeyCache

end AccountGate
