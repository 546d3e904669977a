import AccountGate.Agent.Config
import AccountGate.Proofs.Auth.Registry
import AccountGate.Proofs.Text.Trimmed

/-!
The addresses of a configuration that was accepted. They are checked as they are written, and the
one of the service is trimmed after that. Main statement: what an account works with are addresses
of the web, unless the service is a scheme and slashes alone; then its credentials are for every
host.
-/

namespace AccountGate

/-- All addresses that an account works with. -/
def Account.Config.urls (a : Account.Config) : List String :=
  a.apiEndpoint :: a.tokenEndpoint :: a.authEndpoint :: (a.logoutEndpoint.toList ++ a.extraOrigins)

/-- Credentials that are registered for these starts serve every host of the scheme. -/
def Auth.Registry.Covers (starts : List String) (scheme : String) : Prop :=
  ∀ handle rest, find? (scheme ++ "://" ++ rest) (enrol starts handle []) = some handle

namespace Agent.Config

open Text Auth.Registry

def schemes : List String := ["http", "https"]

/-- No host follows the scheme, only slashes. -/
def IsHostless (scheme url : String) : Prop :=
  ∃ slashes, url.toList = (scheme ++ ":").toList ++ List.replicate slashes '/'

variable {scheme url : String}

theorem isWebAddress_iff :
    isWebAddress url = true ↔ ∃ scheme ∈ schemes, (scheme ++ "://").toList <+: url.toList := by
  simp [isWebAddress, schemes, List.isPrefixOf_iff_prefix]

theorem isHostless_iff (h : scheme ∈ schemes) :
    IsHostless scheme url ↔ trimEndOf '/' url = scheme ++ ":" := by
  rw [trimEndOf_eq_iff, and_iff_right]
  · rfl
  · revert scheme
    decide

theorem not_isWebAddress_scheme (h : scheme ∈ schemes) : ¬ isWebAddress (scheme ++ ":") = true := by
  revert scheme
  decide

/-- Trimming cuts into the address only where no host follows. -/
theorem isWebAddress_trimEndOf_iff (h : isWebAddress url = true) :
    isWebAddress (trimEndOf '/' url) = true ↔ ∀ scheme ∈ schemes, ¬ IsHostless scheme url := by
  constructor
  · intro hweb scheme hscheme hhostless
    rw [(isHostless_iff hscheme).mp hhostless] at hweb
    exact absurd hweb (not_isWebAddress_scheme hscheme)
  · intro hhost
    obtain ⟨scheme, hscheme, rest, hrest⟩ := isWebAddress_iff.mp h
    have hurl : url = scheme ++ "://" ++ String.ofList rest := by
      rw [← String.toList_inj, String.toList_append, String.toList_ofList, hrest]
    have hstem : trimEndOf '/' (scheme ++ "://") = scheme ++ ":" := by
      clear hurl hrest
      revert scheme
      decide
    have htrim := trimEndOf_append '/' (scheme ++ "://") (String.ofList rest)
    rw [← hurl, hstem] at htrim
    split at htrim
    · exact absurd ((isHostless_iff hscheme).mpr htrim) (hhost scheme hscheme)
    · rw [isWebAddress_iff, htrim]
      exact ⟨scheme, hscheme, by simp⟩

theorem covers_iff (starts : List String) (h : scheme ∈ schemes) :
    Covers starts scheme ↔ ∃ start ∈ starts, start.toList <+: (scheme ++ "://").toList := by
  have hany (rest : String) : scheme ++ "://" ++ rest ≠ anyUrl := by
    rw [Ne, ← String.toList_inj]
    simp only [schemes, List.mem_cons, List.not_mem_nil, or_false] at h
    rcases h with rfl | rfl <;> simp [anyUrl]
  have hserves (start rest : String) : serves (scheme ++ "://" ++ rest) start = true ↔
      start.toList <+: (scheme ++ "://").toList ++ rest.toList := by
    simp [serves, hany, List.isPrefixOf_iff_prefix]
  have hfound (handle : Auth.Handle) (rest : String) :
      find? (scheme ++ "://" ++ rest) (enrol starts handle []) = some handle ↔
        ∃ start ∈ starts, start.toList <+: (scheme ++ "://").toList ++ rest.toList := by
    rw [find?_enrol]
    simp [first?, hserves]
  constructor
  · intro hcovers
    simpa using (hfound (.basic 0 ⟨""⟩) "").mp (hcovers _ _)
  · rintro ⟨start, hmem, hstart⟩ handle rest
    exact (hfound handle rest).mpr ⟨start, hmem, hstart.trans (List.prefix_append _ _)⟩

section Accepted

variable {contents : Except Disk.Fault String} {environment : String → Option String} {c : Config}

/-- The addresses that are used as they are written. -/
def written (s : Service) : List String :=
  s.tokenEndpoint.toList ++ (s.authEndpoint.toList ++ (s.logoutEndpoint.toList ++ s.extraOrigins))

theorem map_snd_addresses (s : Service) :
    (addresses s).map Prod.snd = s.apiEndpoint :: written s := by
  have hextra : Prod.snd ∘ (fun url : String => ("extra_origins", url)) = id := rfl
  unfold addresses written
  cases s.tokenEndpoint <;> cases s.authEndpoint <;> cases s.logoutEndpoint <;> simp [hextra]

theorem isWebAddress_of_load (h : load contents environment = .ok c) :
    ∀ url ∈ c.service.apiEndpoint :: written c.service, isWebAddress url = true := by
  have hnone : c.fault? = none := by
    unfold load at h
    split at h
    · exact absurd h (by simp)
    · split at h
      · exact absurd h (by simp)
      · dsimp only at h
        split at h
        · exact absurd h (by simp)
        · next hnone =>
          rw [← Except.ok.inj h]
          exact hnone
  unfold fault? at hnone
  split at hnone
  · exact absurd hnone (by simp)
  · obtain ⟨haddresses, -⟩ := Option.or_eq_none_iff.mp hnone
    intro url hurl
    rw [← map_snd_addresses] at hurl
    obtain ⟨entry, hentry, rfl⟩ := List.mem_map.mp hurl
    have hfault := List.findSome?_eq_none_iff.mp haddresses entry hentry
    unfold addressFault? at hfault
    by_contra hweb
    exact absurd hfault (by simp [hweb])

/-- What is put after the address of the service. -/
def paths : List String := ["", "/oauth2/token/", "/oauth2/authorize/"]

theorem mem_urls_account (c : Config) (h : url ∈ c.account.urls) :
    url ∈ written c.service ∨
      ∃ path ∈ paths, url = trimEndOf '/' c.service.apiEndpoint ++ path := by
  have hor {written : Option String} {default : String} :
      written.getD default ∈ written ∨ written.getD default = default := by
    cases written <;> simp
  simp only [Account.Config.urls, List.mem_cons, List.mem_append] at h
  simp only [written, List.mem_append, Option.mem_toList]
  rcases h with rfl | rfl | rfl | hlogout | hextra
  · exact .inr ⟨"", by decide, String.append_empty.symm⟩
  · exact hor.imp .inl fun h => ⟨"/oauth2/token/", by decide, h⟩
  · exact hor.imp (.inr ∘ .inl) fun h => ⟨"/oauth2/authorize/", by decide, h⟩
  · exact .inl (.inr (.inr (.inl (Option.mem_toList.mp hlogout))))
  · exact .inl (.inr (.inr (.inr hextra)))

theorem isWebAddress_append (path : String) (h : isWebAddress url = true) :
    isWebAddress (url ++ path) = true := by
  obtain ⟨scheme, hscheme, hstart⟩ := isWebAddress_iff.mp h
  refine isWebAddress_iff.mpr ⟨scheme, hscheme, ?_⟩
  have happend : (url ++ path).toList = url.toList ++ path.toList := String.toList_append
  exact happend ▸ hstart.trans (List.prefix_append _ _)

/-- A web address that begins every address of a scheme is the bare scheme. -/
theorem eq_of_isWebAddress (h : scheme ∈ schemes) (hweb : isWebAddress url = true)
    (hstart : url.toList <+: (scheme ++ "://").toList) : url = scheme ++ "://" := by
  obtain ⟨scheme', hscheme', hbegins⟩ := isWebAddress_iff.mp hweb
  have heq : scheme' = scheme := by
    have htrans := hbegins.trans hstart
    clear hstart hbegins hweb
    revert scheme scheme'
    decide
  subst heq
  exact String.toList_inj.mp (hstart.eq_of_length_le hbegins.length_le)

/-- What trimming has left of an address begins every address of a scheme only if no host was
there. -/
theorem isHostless_of_starts (h : scheme ∈ schemes) (hweb : isWebAddress url = true)
    (hstart : (trimEndOf '/' url).toList <+: (scheme ++ "://").toList) :
    IsHostless scheme url := by
  by_cases hhost : ∀ scheme ∈ schemes, ¬ IsHostless scheme url
  · have heq := eq_of_isWebAddress h ((isWebAddress_trimEndOf_iff hweb).mpr hhost) hstart
    have hslash : ['/'] <:+ (trimEndOf '/' url).toList := by
      rw [heq, String.toList_append]
      exact List.IsSuffix.trans (by decide) (List.suffix_append _ _)
    exact absurd hslash (not_suffix_trimEndOf '/' url)
  · push Not at hhost
    obtain ⟨scheme', hscheme', hhostless⟩ := hhost
    have heq : scheme' = scheme := by
      rw [(isHostless_iff hscheme').mp hhostless] at hstart
      clear hhostless
      revert hstart
      revert scheme scheme'
      decide
    exact heq ▸ hhostless

/-- What an account works with are web addresses, or what trimming has left of a service without a
host. Credentials are for every host of a scheme when the service names no host in it, or when the
bare scheme is given as an origin. -/
theorem addresses_name_hosts_if_service_does (h : load contents environment = .ok c) :
    (∀ url ∈ c.account.urls, isWebAddress url = true ∨
      ∃ scheme ∈ schemes, IsHostless scheme c.service.apiEndpoint ∧
        ∃ path ∈ paths, url = scheme ++ ":" ++ path) ∧
    ((∀ url ∈ c.account.urls, isWebAddress url = true) ↔
      ∀ scheme ∈ schemes, ¬ IsHostless scheme c.service.apiEndpoint) ∧
    ∀ scheme ∈ schemes, Covers c.account.origins scheme ↔
      IsHostless scheme c.service.apiEndpoint ∨ scheme ++ "://" ∈ c.service.extraOrigins := by
  have hwritten := isWebAddress_of_load h
  have hservice : isWebAddress c.service.apiEndpoint = true := hwritten _ List.mem_cons_self
  have htrimmed := isWebAddress_trimEndOf_iff hservice
  have hurls : ∀ url ∈ c.account.urls, isWebAddress url = true ∨
      ∃ path ∈ paths, url = trimEndOf '/' c.service.apiEndpoint ++ path := fun url hurl =>
    (mem_urls_account c hurl).imp_left fun hmem => hwritten url (List.mem_cons_of_mem _ hmem)
  refine ⟨fun url hurl => ?_, ⟨fun hall => ?_, fun hhost url hurl => ?_⟩, fun scheme hscheme => ?_⟩
  · by_cases hhost : ∀ scheme ∈ schemes, ¬ IsHostless scheme c.service.apiEndpoint
    · rcases hurls url hurl with hweb | ⟨path, -, rfl⟩
      · exact .inl hweb
      · exact .inl (isWebAddress_append path (htrimmed.mpr hhost))
    · push Not at hhost
      obtain ⟨scheme, hscheme, hhostless⟩ := hhost
      refine (hurls url hurl).imp_right ?_
      rintro ⟨path, hpath, rfl⟩
      exact ⟨scheme, hscheme, hhostless, path, hpath, by rw [(isHostless_iff hscheme).mp hhostless]⟩
  · exact htrimmed.mp (hall _ List.mem_cons_self)
  · rcases hurls url hurl with hweb | ⟨path, -, rfl⟩
    · exact hweb
    · exact isWebAddress_append path (htrimmed.mpr hhost)
  · rw [covers_iff _ hscheme]
    constructor
    · rintro ⟨start, hmem, hstart⟩
      rcases List.mem_cons.mp hmem with rfl | hextra
      · exact .inl (isHostless_of_starts hscheme hservice hstart)
      · have hmem : start ∈ written c.service := by
          simp only [written, List.mem_append]
          exact .inr (.inr (.inr hextra))
        rw [← eq_of_isWebAddress hscheme (hwritten start (List.mem_cons_of_mem _ hmem)) hstart]
        exact .inr hextra
    · rintro (hhostless | hextra)
      · refine ⟨trimEndOf '/' c.service.apiEndpoint, List.mem_cons_self, ?_⟩
        rw [(isHostless_iff hscheme).mp hhostless]
        clear hhostless
        revert scheme
        decide
      · exact ⟨_, List.mem_cons_of_mem _ hextra, List.prefix_rfl⟩

section Sample

set_option maxRecDepth 10000

/-- The text of a configuration whose service is this. -/
def sampleText (service : String) : String :=
  "[account]\nclient_id = \"abc\"\napi_endpoint = \"" ++ service ++ "\"\n"

def sampleConfig (service : String) : Config where
  service := { clientId := "abc", apiEndpoint := service }

theorem service_with_host_is_kept :
    load (.ok (sampleText "https://a.io//")) (fun _ => none) = .ok (sampleConfig "https://a.io//") ∧
    (sampleConfig "https://a.io//").account.apiEndpoint = "https://a.io" ∧
    (∀ url ∈ (sampleConfig "https://a.io//").account.urls, isWebAddress url = true) ∧
    ∀ scheme ∈ schemes, ¬ Covers (sampleConfig "https://a.io//").account.origins scheme := by
  have hload : load (.ok (sampleText "https://a.io//")) (fun _ => none) =
      .ok (sampleConfig "https://a.io//") := by decide +kernel
  have htrim : ∀ scheme ∈ schemes, trimEndOf '/' "https://a.io//" ≠ scheme ++ ":" := by decide
  have hhost : ∀ scheme ∈ schemes, ¬ IsHostless scheme "https://a.io//" := fun scheme hscheme h =>
    htrim scheme hscheme ((isHostless_iff hscheme).mp h)
  obtain ⟨-, hurls, hcovers⟩ := addresses_name_hosts_if_service_does hload
  refine ⟨hload, by decide, hurls.mpr hhost, fun scheme hscheme h => ?_⟩
  rcases (hcovers scheme hscheme).mp h with hhostless | hextra
  · exact hhost scheme hscheme hhostless
  · exact absurd hextra List.not_mem_nil

/-- A service without a host is accepted; its address is no longer one of the web, and requests to
every host carry its credentials. -/
theorem service_without_host_covers_all : ∃ contents environment c,
    load contents environment = .ok c ∧
    c.account.apiEndpoint = "https:" ∧ c.account.tokenEndpoint = "https:/oauth2/token/" ∧
    ¬ (∀ url ∈ c.account.urls, isWebAddress url = true) ∧ Covers c.account.origins "https" := by
  exact ⟨.ok (sampleText "https://"), fun _ => none, sampleConfig "https://", by decide +kernel,
    by decide, by decide, by decide, (covers_iff _ (by decide)).mpr (by decide)⟩

end Sample

end Accepted

end Agent.Config

end AccountGate
