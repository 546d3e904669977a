import AccountGate.Proofs.Auth.Renewal

/-!
A vault whose tokens several tasks need renewed. Main statements: whatever tasks do that keep to the
rules, the tokens are the first ones or the renewed ones; no task knows later ones than there are; and
once the renewed ones are there, somebody knows them.
-/

namespace AccountGate.Auth

open Program

variable {ι : Type} {sc : Scene} {v₀ v v' : Vault} {st st' : ι → Grip} {i : ι} {c : Call} {r : Reply c}

/-- Nobody knows later tokens than the current ones, and somebody knows the renewed ones if they are
current. -/
def Scene.Current (sc : Scene) (st : ι → Grip) (t : Tokens) : Prop :=
  t = sc.first ∧ (∀ i, (st i).known = sc.first) ∨ t = sc.last ∧ ∃ i, (st i).known = sc.last

theorem Scene.Current.congr {t : Tokens} (h : sc.Current st t)
    (hknown : ∀ i, (st' i).known = (st i).known) : sc.Current st' t := by
  rcases h with ⟨ht, hall⟩ | ⟨ht, i, hi⟩
  · exact .inl ⟨ht, fun i => (hknown i).trans (hall i)⟩
  · exact .inr ⟨ht, i, (hknown i).trans hi⟩

/-- What the tokens in the vault are while somebody has them in hand. -/
def Hand.Fits (sc : Scene) (st : ι → Grip) (current : Tokens) : Hand → Prop
  | .free => False
  | .holds t => current = t ∧ sc.Current st t
  | .marked _ => True
  | .heard t => t = sc.last
  | .put t => t = sc.last ∧ current = t

theorem Hand.Fits.congr {hand : Hand} {current : Tokens} (h : hand.Fits sc st current)
    (hknown : ∀ i, (st' i).known = (st i).known) : hand.Fits sc st' current := by
  cases hand with
  | holds t => exact ⟨h.1, h.2.congr hknown⟩
  | _ => exact h

/-- Nobody has the tokens in hand, or one task has. -/
inductive InHand (sc : Scene) (st : ι → Grip) (v : Vault) : Prop
  | idle : (∀ i, (st i).hand = .free) →
      (∀ id, sc.id? = some id → id ∉ v.held ∧ sc.Current st (v.tokensOf id)) → InHand sc st v
  | busy (i : ι) (id : Nat) : sc.id? = some id → id ∈ v.held →
      (st i).hand.Fits sc st (v.tokensOf id) → (∀ j, j ≠ i → (st j).hand = .free) → InHand sc st v

/-- What tasks that keep to the rules leave of a vault. -/
structure Tended (sc : Scene) (v₀ : Vault) (st : ι → Grip) (v : Vault) : Prop where
  registry_eq : v.registry = v₀.registry
  others_eq : ∀ other, sc.id? ≠ some other → v.tokensOf other = v₀.tokensOf other
  has : ∀ i, sc.Has (st i).known
  in_hand : InHand sc st v

theorem InHand.of_hand (h : InHand sc st v) (hi : (st i).hand ≠ .free) :
    ∃ id, sc.id? = some id ∧ id ∈ v.held ∧ (st i).hand.Fits sc st (v.tokensOf id) ∧
      ∀ j, j ≠ i → (st j).hand = .free := by
  cases h with
  | idle hfree _ => exact absurd (hfree i) hi
  | busy k id hid hheld hfits hothers =>
    have hk : i = k := by
      by_contra hne
      exact hi (hothers i hne)
    subst hk
    exact ⟨id, hid, hheld, hfits, hothers⟩

/-- While the tokens are to be had, nobody has them in hand. -/
theorem InHand.of_not_held (h : InHand sc st v) {id : Nat} (hid : sc.id? = some id)
    (hheld : id ∉ v.held) :
    (∀ i, (st i).hand = .free) ∧ sc.Current st (v.tokensOf id) := by
  cases h with
  | idle hfree hcurrent => exact ⟨hfree, (hcurrent id hid).2⟩
  | busy k other hother hheld' _ _ =>
    obtain rfl := Option.some.inj (hid.symm.trans hother)
    exact absurd hheld' hheld

theorem Vault.replies_acquire {id : Nat} {t : Tokens} (h : v.Replies (.acquire id) t v') :
    id ∉ v.held ∧ t = v.tokensOf id ∧ v' = v.hold id := by
  by_cases hheld : id ∈ v.held
  · rcases h with h | ⟨h, _⟩ <;> simp [step, hheld] at h
  · rw [Replies, step_acquire_of_free hheld] at h
    rcases h with h | ⟨h, _⟩
    · obtain ⟨rfl, rfl⟩ := Outcome.reply.inj h
      exact ⟨hheld, rfl, rfl⟩
    · exact absurd h (by simp)

variable [DecidableEq ι]

/-- The others are as they were, and the one that moved knows no other tokens. -/
theorem known_update {g : Grip} (h : g.known = (st i).known) (j : ι) :
    (Function.update st i g j).known = (st j).known :=
  (Function.forall_update_iff st fun j g => g.known = (st j).known).mpr ⟨h, fun _ _ => rfl⟩ j

theorem free_update (h : ∀ j, j ≠ i → (st j).hand = .free) (g : Grip) (j : ι) (hj : j ≠ i) :
    (Function.update st i g j).hand = .free := by
  rw [Function.update_of_ne hj]
  exact h j hj

namespace Tended

theorem has_update (h : Tended sc v₀ st v) {g : Grip} (hg : sc.Has g.known) (j : ι) :
    sc.Has (Function.update st i g j).known :=
  (Function.forall_update_iff st fun _ g => sc.Has g.known).mpr ⟨hg, fun j _ => h.has j⟩ j

/-- A task goes on with the tokens in hand. -/
theorem goes_on (h : Tended sc v₀ st v) {id : Nat} (hid : sc.id? = some id) {hand : Hand}
    {current : Tokens} (hfits : hand.Fits sc st current) (hcurrent : v'.tokensOf id = current)
    (hheld : id ∈ v'.held) (hfree : ∀ j, j ≠ i → (st j).hand = .free)
    (hregistry : v'.registry = v.registry)
    (hothers : ∀ other, other ≠ id → v'.tokensOf other = v.tokensOf other) :
    Tended sc v₀ (Function.update st i { st i with hand }) v' where
  registry_eq := hregistry.trans h.registry_eq
  others_eq other hother := by
    have hne : other ≠ id := by
      rintro rfl
      exact hother hid
    exact (hothers other hne).trans (h.others_eq other hother)
  has := h.has_update (h.has i)
  in_hand := by
    refine .busy i id hid hheld ?_ (free_update hfree _)
    rw [Function.update_self, hcurrent]
    exact hfits.congr (known_update rfl)

/-- A task lets go of the tokens, and knows them from then on. -/
theorem lets_go (h : Tended sc v₀ st v) {id : Nat} (hid : sc.id? = some id) {t : Tokens}
    (hcurrent : v.tokensOf id = t) (ht : t = sc.last ∨ sc.Current st t)
    (hfree : ∀ j, j ≠ i → (st j).hand = .free) :
    Tended sc v₀ (Function.update st i ⟨.free, t⟩)
      { v with held := v.held.filter (· != id) } where
  registry_eq := h.registry_eq
  others_eq := h.others_eq
  has := by
    refine h.has_update ?_
    rcases ht with rfl | ⟨rfl, _⟩ | ⟨rfl, _⟩
    · exact .inr rfl
    · exact .inl rfl
    · exact .inr rfl
  in_hand := by
    refine .idle ?_ fun other hother => ⟨?_, ?_⟩
    · exact (Function.forall_update_iff st fun _ g => g.hand = .free).mpr ⟨rfl, hfree⟩
    · obtain rfl := Option.some.inj (hid.symm.trans hother)
      simp
    · obtain rfl := Option.some.inj (hid.symm.trans hother)
      -- The task that lets go of the renewed tokens is one that knows them.
      have hlast (heq : t = sc.last) : sc.Current (Function.update st i ⟨.free, t⟩) t :=
        .inr ⟨heq, i, by rw [Function.update_self, heq]⟩
      show sc.Current _ (v.tokensOf id)
      rw [hcurrent]
      rcases ht with heq | ⟨rfl, hall⟩ | ⟨heq, _⟩
      · exact hlast heq
      · exact .inl ⟨rfl, (Function.forall_update_iff st fun _ g => g.known = sc.first).mpr
          ⟨rfl, fun j _ => hall j⟩⟩
      · exact hlast heq

omit [DecidableEq ι] in
/-- What can be replied to a task that keeps to the rules. -/
theorem expects (h : Tended sc v₀ st v) (hfound : ∀ url ∈ sc.urls, v₀.registry.find? url = sc.found)
    (hallow : (st i).Allows sc c) (hr : v.Replies c r v') (hanswers : sc.Answers c r) :
    (st i).Expects sc c r := by
  cases c with
  | suspended =>
    rcases hr with hr | ⟨hr, _⟩
    · exact (Outcome.reply.inj hr).1.symm
    · exact absurd hr (by simp [Vault.step])
  | find url =>
    rcases hr with hr | ⟨hr, _⟩
    · obtain ⟨rfl, -⟩ := Outcome.reply.inj hr
      show v.registry.find? url = sc.found
      rw [h.registry_eq]
      exact hfound url hallow.2
    · exact absurd hr (by simp [Vault.step])
  | acquire id =>
    obtain ⟨hheld, rfl, -⟩ := Vault.replies_acquire hr
    rcases (h.in_hand.of_not_held hallow.2 hheld).2 with ⟨ht, hall⟩ | ⟨ht, _⟩
    · exact .inl (ht.trans (hall i).symm)
    · exact .inr ht
  | _ => exact hanswers

/-- A call after which the task stands where it stood. -/
theorem stays (h : Tended sc v₀ st v) (hafter : (st i).after sc c r = st i) :
    Tended sc v₀ (Function.update st i ((st i).after sc c r)) v := by
  rwa [hafter, Function.update_eq_self]

/-- The request of a task that has marked the tokens brings the renewed ones. -/
theorem send (h : Tended sc v₀ st v) {o : Outgoing} (hsends : (st i).hand.Sends sc o) :
    Tended sc v₀ (Function.update st i ((st i).after sc (.send o)
      (sc.answer o.request.method o.request.url))) v := by
  cases hhand : (st i).hand with
  | free => exact h.stays (by simp only [Grip.after, hhand])
  | marked t =>
    have hafter : (st i).after sc (.send o) (sc.answer o.request.method o.request.url) =
        { st i with hand := .heard sc.last } := by
      have hheard : (Hand.marked t).Sends sc o := hhand ▸ hsends
      simp only [Grip.after, hhand]
      rw [hheard]
    obtain ⟨id, hid, hheld, _, hfree⟩ := h.in_hand.of_hand (i := i) (by simp [hhand])
    rw [hafter]
    have hlast : (Hand.heard sc.last).Fits sc st (v.tokensOf id) := rfl
    exact h.goes_on hid hlast rfl hheld hfree rfl fun _ _ => rfl
  | _ =>
    rw [hhand] at hsends
    exact hsends.elim

/-- Tokens are put down by the task that holds them: the ones before, marked, or the renewed ones. -/
theorem update {id : Nat} {t : Tokens} (h : Tended sc v₀ st v)
    (hallow : (st i).Allows sc (.update id t)) (r : Reply (.update id t)) :
    Tended sc v₀ (Function.update st i ((st i).after sc (.update id t) r)) (v.putTokens id t) := by
  obtain ⟨hid, hcase⟩ := hallow
  have hself : (v.putTokens id t).tokensOf id = t := by
    rw [Vault.tokensOf_putTokens, if_pos rfl]
  have hothers (other : Nat) (hne : other ≠ id) :
      (v.putTokens id t).tokensOf other = v.tokensOf other := by
    rw [Vault.tokensOf_putTokens, if_neg hne]
  have hhand : (st i).hand ≠ .free := by
    rcases hcase with ⟨u, hu, _⟩ | hu <;> simp [hu]
  obtain ⟨id', hid', hheld, hfits, hfree⟩ := h.in_hand.of_hand hhand
  obtain rfl := Option.some.inj (hid.symm.trans hid')
  rcases hcase with ⟨u, hu, _⟩ | hu
  · have hafter : (st i).after sc (.update id t) r = { st i with hand := .marked u } := by
      simp only [Grip.after, hu]
    rw [hafter]
    have hmarked : (Hand.marked u).Fits sc st t := trivial
    exact h.goes_on hid hmarked hself hheld hfree rfl hothers
  · have hafter : (st i).after sc (.update id t) r = { st i with hand := .put t } := by
      simp only [Grip.after, hu]
    rw [hu] at hfits
    rw [hafter]
    exact h.goes_on hid ⟨hfits, rfl⟩ hself hheld hfree rfl hothers

/-- The task that holds tokens lets go of them, renewed or as it has found them. -/
theorem release {id : Nat} (h : Tended sc v₀ st v) (hallow : (st i).Allows sc (.release id))
    (r : Reply (.release id)) :
    Tended sc v₀ (Function.update st i ((st i).after sc (.release id) r))
      { v with held := v.held.filter (· != id) } := by
  obtain ⟨hid, hcase⟩ := hallow
  have hhand : (st i).hand ≠ .free := by
    rcases hcase with ⟨u, hu⟩ | ⟨u, hu⟩ <;> simp [hu]
  obtain ⟨id', hid', _, hfits, hfree⟩ := h.in_hand.of_hand hhand
  obtain rfl := Option.some.inj (hid.symm.trans hid')
  rcases hcase with ⟨u, hu⟩ | ⟨u, hu⟩
  · have hafter : (st i).after sc (.release id) r = ⟨.free, u⟩ := by
      simp only [Grip.after, hu]
    rw [hu] at hfits
    rw [hafter]
    exact h.lets_go hid hfits.1 (.inr hfits.2) hfree
  · have hafter : (st i).after sc (.release id) r = ⟨.free, u⟩ := by
      simp only [Grip.after, hu]
    rw [hu] at hfits
    rw [hafter]
    exact h.lets_go hid hfits.2 (.inl hfits.1) hfree

/-- Every call of a task that keeps to the rules. -/
theorem step (h : Tended sc v₀ st v) (hallow : (st i).Allows sc c) (hr : v.Replies c r v')
    (hanswers : sc.Answers c r) :
    Tended sc v₀ (Function.update st i ((st i).after sc c r)) v' := by
  cases c with
  | suspended =>
    rcases hr with hr | ⟨hr, _⟩
    · obtain ⟨-, rfl⟩ := Outcome.reply.inj hr
      exact h.stays rfl
    · exact absurd hr (by simp [Vault.step])
  | find url =>
    rcases hr with hr | ⟨hr, _⟩
    · obtain ⟨-, rfl⟩ := Outcome.reply.inj hr
      exact h.stays rfl
    · exact absurd hr (by simp [Vault.step])
  | clock =>
    rcases hr with hr | ⟨_, rfl⟩
    · exact absurd hr (by simp [Vault.step])
    · exact h.stays rfl
  | count counter =>
    rcases hr with hr | ⟨_, rfl⟩
    · exact absurd hr (by simp [Vault.step])
    · exact h.stays rfl
  | send o =>
    rcases hr with hr | ⟨_, rfl⟩
    · exact absurd hr (by simp [Vault.step])
    · obtain rfl : r = sc.answer o.request.method o.request.url := hanswers
      exact h.send hallow
  | acquire id =>
    -- Nobody has the tokens in hand, so they are in order.
    obtain ⟨hheld, rfl, rfl⟩ := Vault.replies_acquire hr
    obtain ⟨hfree, hcurrent⟩ := h.in_hand.of_not_held hallow.2 hheld
    exact h.goes_on hallow.2 ⟨rfl, hcurrent⟩ rfl List.mem_cons_self (fun j _ => hfree j) rfl
      fun _ _ => rfl
  | update id t =>
    rcases hr with hr | ⟨hr, _⟩
    · obtain ⟨-, rfl⟩ := Outcome.reply.inj hr
      exact h.update hallow r
    · exact absurd hr (by simp [Vault.step])
  | release id =>
    rcases hr with hr | ⟨hr, _⟩
    · obtain ⟨-, rfl⟩ := Outcome.reply.inj hr
      exact h.release hallow r
    · exact absurd hr (by simp [Vault.step])
  | _ => exact hallow.elim

omit [DecidableEq ι] in
/-- Who comes to know the renewed tokens has put them, or somebody knew them before. -/
theorem exists_known (h : Tended sc v₀ st v) (hallow : (st i).Allows sc c)
    (hknown : ((st i).after sc c r).known = sc.last) :
    (∃ j, (st j).known = sc.last) ∨ ∃ t, (st i).hand = .put t := by
  have hsame (heq : ((st i).after sc c r).known = (st i).known) : ∃ j, (st j).known = sc.last :=
    ⟨i, heq.symm.trans hknown⟩
  cases c with
  | release id =>
    obtain ⟨hid, ⟨t, ht⟩ | hput⟩ := hallow
    · obtain ⟨_, _, _, hfits, _⟩ := h.in_hand.of_hand (i := i) (by simp [ht])
      rw [ht] at hfits
      simp only [Grip.after, ht] at hknown
      rcases hfits.2 with ⟨hfirst, hall⟩ | ⟨_, hsome⟩
      · exact .inl ⟨i, (hall i).trans (hfirst.symm.trans hknown)⟩
      · exact .inl hsome
    · exact .inr hput
  | update id t =>
    refine .inl (hsame ?_)
    simp only [Grip.after]
    split <;> rfl
  | send o =>
    refine .inl (hsame ?_)
    simp only [Grip.after]
    split <;> rfl
  | _ => exact .inl (hsame rfl)

omit [DecidableEq ι] in
/-- Who knows the renewed tokens will know no others. -/
theorem known_stays (h : Tended sc v₀ st v) (hallow : (st i).Allows sc c)
    (hknown : (st i).known = sc.last) : ((st i).after sc c r).known = sc.last := by
  cases c with
  | release id =>
    obtain ⟨hid, ⟨t, ht⟩ | ⟨t, ht⟩⟩ := hallow
    · obtain ⟨_, _, _, hfits, _⟩ := h.in_hand.of_hand (i := i) (by simp [ht])
      rw [ht] at hfits
      simp only [Grip.after, ht]
      rcases hfits.2 with ⟨hfirst, hall⟩ | ⟨hlast, _⟩
      · exact hfirst.trans ((hall i).symm.trans hknown)
      · exact hlast
    · obtain ⟨_, _, _, hfits, _⟩ := h.in_hand.of_hand (i := i) (by simp [ht])
      rw [ht] at hfits
      simp only [Grip.after, ht]
      exact hfits.1
  | update id t =>
    simp only [Grip.after]
    split <;> exact hknown
  | send o =>
    simp only [Grip.after]
    split <;> exact hknown
  | _ => exact hknown

end Tended

end AccountGate.Auth
