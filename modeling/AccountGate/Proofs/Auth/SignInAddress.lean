import AccountGate.Auth.AuthorizationUrl
import AccountGate.Proofs.Url.Parts

/-!
The address at which the user signs in. Main statement: it is the endpoint, with the pairs of the
request after those of its own query and nothing else changed.
-/

namespace AccountGate.Auth.AuthorizationRequest

open Url (Authority Form.decode partsIn)

/-- Whatever the values of the request are, each stands in the query as one pair with that value. -/
theorem url_carries_pairs (r : AuthorizationRequest) (u : Url) (h : Url.parse r.endpoint = .ok u) :
    ∃ out query, r.url = .ok out ∧ out = Url.render { u with query := some query } ∧
      partsIn out =
        { scheme := u.scheme, authority := u.authority.map Authority.render,
          path := u.guardPath ++ u.path.render, query := some query, fragment := u.fragment } ∧
      Form.decode (Text.bytesOf query) = u.pairs ++
        ([("response_type", "code"), ("client_id", r.clientId), ("redirect_uri", r.redirectUri),
          ("scope", r.scope), ("state", r.state)] ++
        match r.codeChallenge with
        | some challenge => [("code_challenge", challenge), ("code_challenge_method", "S256")]
        | none => []) := by
  have hparts := ((Url.isParted_of_parse h).addPairs r.pairs).partsIn_render
  refine ⟨_, Url.Form.append (u.query.getD []) r.pairs, ?url, rfl, hparts, ?pairs⟩
  case url => rw [url, h]; rfl
  case pairs => rw [Url.Form.decode_append]; rfl

theorem sample_url_carries_pairs : ∃ u, Url.parse "https://id.example:8443/in?tenant=a#top" = .ok u ∧
    ∃ out query, url ⟨"https://id.example:8443/in?tenant=a#top", "a&b", "http://127.0.0.1/", "x y",
      "s=1", none⟩ = .ok out ∧ out = Url.render { u with query := some query } ∧
      partsIn out =
        { scheme := u.scheme, authority := u.authority.map Authority.render,
          path := u.guardPath ++ u.path.render, query := some query, fragment := u.fragment } ∧
      Form.decode (Text.bytesOf query) = [("tenant", "a"), ("response_type", "code"),
        ("client_id", "a&b"), ("redirect_uri", "http://127.0.0.1/"), ("scope", "x y"),
        ("state", "s=1")] := by
  have hparse : Url.parse "https://id.example:8443/in?tenant=a#top" = .ok
      { scheme := "https".toList,
        authority := some { host := some (.domain "id.example".toList), port := some 8443 },
        path := .segments ["in".toList], query := some "tenant=a".toList,
        fragment := some "top".toList } := by
    decide +kernel
  exact ⟨_, hparse, url_carries_pairs _ _ hparse⟩

end AccountGate.Auth.AuthorizationRequest
