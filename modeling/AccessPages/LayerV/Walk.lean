import AccessPages.LayerV.Discipline
import AccessPages.Pages.Helpers
/-!
# LayerV — the walk through `GuestResources`

Each method of `GuestResources` asks its questions knowingly, whatever
they meet. A row found by a transaction is still there at the next one,
since requests to the outside leave the database alone.
-/

namespace AccessPages

namespace LayerV

open Pages (UpstreamScope pageIdRe grantIdRe)

theorem isSpace_of_cridRe {s : String} (h : cridRe s = true) : ∀ c ∈ s.toList, isSpace c = false := by
  intro c hc
  simp only [cridRe, matchesClass, Bool.and_eq_true, List.all_eq_true, Bool.or_eq_true] at h
  refine Pages.isSpace_of_isTokenChar ?_
  have hc := h.2 c hc
  simp only [Pages.isTokenChar, Char.isAlphanum, Char.isAlpha, Bool.or_eq_true]
  rcases hc with hc | hc
  · exact .inl (.inl (.inl (.inr hc)))
  · refine .inl (.inl (.inr ?_))
    simp only [decide_eq_true_eq, Char.isDigit, Bool.and_eq_true, Char.le_def, ge_iff_le,
      UInt32.le_iff_toNat_le] at hc ⊢
    have h2 : '2'.val.toNat = 50 := rfl
    have h7 : '7'.val.toNat = 55 := rfl
    have h0 : '0'.val.toNat = 48 := rfl
    have h9 : '9'.val.toNat = 57 := rfl
    omega

/-- A CRID has no blanks. -/
theorem strip_crid {s : String} (h : cridRe s = true) : strip s = s :=
  strip_eq_self (isSpace_of_cridRe h)

theorem crid_ne_empty {s : String} (h : cridRe s = true) : s ≠ "" := by
  rintro rfl
  exact absurd h (by decide)

section Walk

variable {S : Side} {I : World → Prop} {w : World} (cfg : Config)

/-! ## Questions -/

/-- A transaction leaves everything but the database alone. -/
theorem walks_registry (hI : Stable S I) {e : RegistryOp} {P : e.Res → World → Prop} (hw : I w)
    (hpre : e.Pre w.registry) (hknown : e.Known S w)
    (hP : ∀ now w', w'.registry = (e.perform now w.registry).2 → w'.cloud = w.cloud →
      w'.look = w.look → OnOk P (e.perform now w.registry).1 w') :
    Walks S I (askRegistry e) (OnOk P) w := by
  refine walks_ask_ok (e := .registry e) hI hw ⟨hpre, hknown⟩ fun t w' hs => ?_
  show OnOk P (e.perform t.1.now w'.registry).1 _
  rw [hs.registry]
  exact hP t.1.now _ (by rw [Op.perform, hs.registry]) hs.cloud hs.look

/-- A transaction that only reads. -/
theorem walks_binding (hI : Stable S I) {page owner : String} (hw : I w) :
    Walks S I (askRegistry (.binding page owner)) (OnOk fun r w' =>
      r = w.registry.resources.find? (page, owner) ∧ w'.registry = w.registry ∧
        w'.cloud = w.cloud ∧ w'.look = w.look) w :=
  walks_registry hI hw trivial trivial fun _ _ hr hc hl => ⟨rfl, hr, hc, hl⟩

theorem World.Deletable.of_eq {crid : String} {w' : World} (h : w.Deletable S crid)
    (hreg : w'.registry = w.registry) (hlook : w'.look = w.look) : w'.Deletable S crid := by
  unfold World.Deletable
  rwa [hreg, hlook]

/-- A request to delete a resource leaves the database alone. -/
theorem walks_delete (hI : Stable S I) {e : Op} {crid : String}
    (he : e = .deleteResource crid ∨ e = .cleanup crid) (hw : I w)
    (hS : w.Deletable S crid) :
    Walks S I (ask e) (fun r w' => w'.registry = w.registry ∧ w'.look = w.look ∧
      ∀ a, r = .ok a → crid ∈ w'.cloud.deletedResources) w := by
  rcases he with rfl | rfl <;>
  · refine walks_ask hI hw hS fun t => ?_
    have hs := same_meet t.1 w
    rcases step_cases t.1 _ w with h | h | h <;> rw [h]
    · exact ⟨hs.registry, hs.look, nofun⟩
    · exact ⟨hs.registry, hs.look, nofun⟩
    · exact ⟨hs.registry, hs.look, fun _ _ => List.mem_cons_self⟩

theorem walks_deleteResource (hI : Stable S I) {crid : String} (hcrid : cridRe crid = true)
    (hw : I w) (hS : w.Deletable S crid) :
    Walks S I (deleteResource crid) (OnOk fun _ w' => w'.registry = w.registry ∧
      w'.look = w.look ∧ crid ∈ w'.cloud.deletedResources) w := by
  unfold deleteResource
  rw [strip_crid hcrid, if_neg (crid_ne_empty hcrid)]
  refine walks_mono (walks_delete hI (.inl rfl) hw hS) fun r w' _ hr => ?_
  cases r with
  | ok a => exact ⟨hr.1, hr.2.1, hr.2.2 a rfl⟩
  | error e => trivial

theorem walks_cleanup (hI : Stable S I) {crid : String} (hw : I w) (hS : w.Deletable S crid) :
    Walks S I (ask (.cleanup crid)) (fun r w' => w'.registry = w.registry ∧ w'.look = w.look ∧
      ∀ a, r = .ok a → crid ∈ w'.cloud.deletedResources) w :=
  walks_delete hI (.inr rfl) hw hS

theorem walks_deleteThenCleanup (hI : Stable S I) {crid : String} (hcrid : cridRe crid = true)
    (hw : I w) (hS : w.Deletable S crid) :
    Walks S I (deleteThenCleanup crid) (OnOk fun _ w' => w'.registry = w.registry ∧
      w'.look = w.look ∧ crid ∈ w'.cloud.deletedResources) w := by
  unfold deleteThenCleanup
  refine walks_seq (walks_deleteResource hI hcrid hw hS) fun missing w₁ hw₁ h₁ => ?_
  refine walks_seq (P := fun _ w' => w'.registry = w.registry ∧ w'.look = w.look ∧
    crid ∈ w'.cloud.deletedResources) ?_ fun _ w₂ hw₂ h₂ => walks_pure hw₂ h₂
  refine walks_mono (walks_cleanup hI hw₁ (hS.of_eq h₁.1 h₁.2.1)) fun r w₂ _ hr => ?_
  cases r with
  | ok a => exact ⟨hr.1.trans h₁.1, hr.2.1.trans h₁.2.1, hr.2.2 a rfl⟩
  | error e => trivial

theorem walks_retireUpstream (hI : Stable S I) {old : Bool} {crid : String}
    (hcrid : cridRe crid = true) (hw : I w) (hS : w.Deletable S crid) :
    Walks S I (retireUpstream cfg old crid) (OnOk fun _ w' => w'.registry = w.registry ∧
      w'.look = w.look ∧ crid ∈ w'.cloud.deletedResources) w := by
  unfold retireUpstream
  split
  · exact walks_deleteResource hI hcrid hw hS
  split
  · refine walks_attempt (walks_cleanup hI hw hS) fun r w₁ hw₁ h₁ => ?_
    split
    · exact walks_pure hw₁ ⟨h₁.1, h₁.2.1, h₁.2.2 _ rfl⟩
    · refine walks_ok (walks_deleteThenCleanup hI hcrid hw₁ (hS.of_eq h₁.1 h₁.2.1)) fun _ w₂ _ h₂ => ?_
      exact ⟨h₂.1.trans h₁.1, h₂.2.1.trans h₁.2.1, h₂.2.2⟩
    · exact walks_throw hw₁
  split
  · exact walks_deleteThenCleanup hI hcrid hw hS
  · exact walks_deleteResource hI hcrid hw hS

/-! ## Revoking -/

/-- The row of a grant is revoked, under its CRID. -/
def World.Revoked (w : World) (page grantId : String) (crid : Option String) : Prop :=
  ∃ r ∈ w.registry.resources, r.At page grantId ∧ r.crid = crid ∧ r.phase = .revoked

/-- The transaction that begins a retirement. -/
theorem mem_beginRetire {g : Registry} {r : Resource} {page grantId crid qurlId : String}
    {now : Instant} (hr : r ∈ g.resources) (hat : r.At page grantId) :
    { r with phase := .retiring } ∈
      ((RegistryOp.beginRetire page grantId crid qurlId).perform now g).2.resources :=
  (changes_setPhase hr hat _).mpr (.inr rfl)

theorem mem_finishRetire {g : Registry} {r : Resource} {page grantId : String}
    {now : Instant} (hr : r ∈ g.resources) (hat : r.At page grantId) :
    { r with phase := .revoked } ∈
      ((RegistryOp.finishRetire page grantId).perform now g).2.resources :=
  (changes_setPhase hr hat _).mpr (.inr rfl)

/-- **`revoke`.** What it deletes is the CRID of a row that was not revoked
yet, and at its end the row is. -/
theorem walks_revoke (hI : Stable S I) {page grantId crid qurlId : String} (hw : I w)
    (hS : ∀ r ∈ w.registry.resources, r.At page grantId → r.crid = some crid →
      r.phase ≠ .revoked → S.resource page grantId crid w.look) :
    Walks S I (revoke cfg page grantId crid qurlId)
      (OnOk fun _ w' => w'.Revoked page grantId (some crid)) w := by
  unfold revoke
  refine walks_seq (walks_binding hI hw) fun b w₁ hw₁ ⟨hb, hreg₁, _, hlook₁⟩ => ?_
  cases hfind : b with
  | none => exact walks_throw hw₁
  | some r =>
      obtain ⟨hr, hat⟩ := find?_resources.mp (hb.symm.trans hfind)
      simp only
      split
      · exact walks_throw hw₁
      rename_i hcrid
      rw [ne_eq, not_not] at hcrid
      split
      · rename_i hrev
        exact walks_pure hw₁ ⟨r, hreg₁ ▸ hr, hat, hcrid, hrev⟩
      rename_i hphase
      have hres := hS r hr hat hcrid hphase
      have hre := (hI.registry w hw).crid_re r hr crid hcrid
      refine walks_seq (P := fun _ w' => { r with phase := .retiring } ∈ w'.registry.resources ∧
        w'.look = w.look) ?_ fun _ w₂ hw₂ ⟨hr₂, hlook₂⟩ => ?_
      · refine walks_registry hI hw₁ ⟨r, hreg₁ ▸ hr, hat, hcrid, hphase⟩ trivial
          fun now w₂ hreg₂ _ hlook₂ => ⟨?_, hlook₂.trans hlook₁⟩
        rw [hreg₂, hreg₁]
        exact mem_beginRetire hr hat
      refine walks_seq (P := fun _ w' => w'.registry = w₂.registry ∧ w'.look = w₂.look)
        (walks_registry hI hw₂ trivial trivial fun _ _ hreg _ hlook => ⟨hreg, hlook⟩)
        fun old w₃ hw₃ ⟨hreg₃, hlook₃⟩ => ?_
      have hdeletable : w₃.Deletable S crid := by
        refine ⟨{ r with phase := .retiring }, by rwa [hreg₃], hcrid, rfl, ?_⟩
        rw [hlook₃, hlook₂, show r.page = page from hat.1, show r.grantId = grantId from hat.2]
        exact hres
      refine walks_seq (walks_retireUpstream cfg hI hre hw₃ hdeletable)
        fun missing w₄ hw₄ ⟨hreg₄, _, hdel⟩ => ?_
      have hr₄ : { r with phase := .retiring } ∈ w₄.registry.resources := by
        rwa [hreg₄, hreg₃]
      refine walks_seq (P := fun _ w' => w'.Revoked page grantId (some crid)) ?_
        fun _ w₅ hw₅ h₅ => walks_pure hw₅ h₅
      refine walks_registry hI hw₄ ⟨_, hr₄, hat, rfl⟩ ?_ fun now w₅ hreg₅ _ _ => ?_
      · intro s hs hsat c hc
        obtain rfl := Resource.At.unique hs hr₄ hsat hat
        obtain rfl : c = crid := Option.some.inj (hc.symm.trans hcrid)
        exact hdel
      · refine ⟨{ r with phase := .revoked }, ?_, hat, hcrid, rfl⟩
        rw [hreg₅]
        exact mem_finishRetire (r := { r with phase := .retiring }) hr₄ hat

/-- There is no row of the grant, or it is revoked. -/
def World.Settled (w : World) (page grantId : String) : Prop :=
  (∀ r ∈ w.registry.resources, ¬ r.At page grantId) ∨ ∃ c, w.Revoked page grantId (some c)

theorem walks_revokeOwned (hI : Stable S I) {page grantId : String} (hw : I w)
    (hS : ∀ r ∈ w.registry.resources, r.At page grantId → r.phase ≠ .revoked → ∀ c,
      r.crid = some c → S.resource page grantId c w.look) :
    Walks S I (revokeOwned cfg page grantId) (OnOk fun _ w' => w'.Settled page grantId) w := by
  unfold revokeOwned
  refine walks_seq (walks_binding hI hw) fun b w₁ hw₁ ⟨hb, hreg₁, _, hlook₁⟩ => ?_
  cases hfind : b with
  | none =>
      refine walks_pure hw₁ (.inl ?_)
      rw [hreg₁]
      exact find?_resources_none.mp (hb.symm.trans hfind)
  | some r =>
      simp only
      split
      · exact walks_throw hw₁
      rename_i crid hcrid
      refine walks_ok (walks_revoke cfg hI hw₁ fun s hs hsat hc hp => ?_)
        fun _ w' _ h => .inr ⟨crid, h⟩
      rw [hlook₁]
      exact hS s (hreg₁ ▸ hs) hsat hp crid hc

/-! ## Allocating -/

/-- After a pool was put away there is none under the page. -/
theorem not_at_generation {g : Registry} {r : Resource} {page : String} (now : Instant)
    (hg : g.Inv) (hr : r ∈ g.resources) (hat : r.At page "__page__") :
    ∀ s ∈ ((RegistryOp.generation page true).perform now g).2.resources,
      ¬ s.At page "__page__" := by
  obtain ⟨g', hput, hchange, -, -⟩ := exists_putAway hg hr hat
  simp only [RegistryOp.perform, hput, if_true]
  intro s hs hsat
  rcases (hchange s).mp hs with ⟨hs, hne⟩ | rfl
  · exact hne (Resource.At.unique hs hr hsat hat)
  · exact retiredName_ne_page _ hsat.2

/-- The binding `pageGeneration` goes on with is the one there is. -/
theorem walks_pageGeneration (hI : Stable S I) (grantId : String) {isolation : UpstreamScope}
    {page : String} {b : Option Resource} (hw : I w)
    (hb : b = w.registry.resources.find? (page, ownerId grantId isolation)) :
    Walks S I (pageGeneration isolation page b) (OnOk fun p w' =>
      p.2 = w'.registry.resources.find? (page, ownerId grantId isolation) ∧
        w'.cloud = w.cloud ∧ w'.look = w.look ∧
        (isolation = .guest → w'.registry = w.registry)) w := by
  cases isolation with
  | guest => exact walks_pure hw ⟨hb, rfl, rfl, fun _ => rfl⟩
  | page =>
      unfold pageGeneration
      simp only
      split
      · rename_i hrev
        obtain ⟨r, hbr, hphase⟩ : ∃ r, b = some r ∧ r.phase = .revoked := by
          cases hbr : b with
          | none => rw [hbr] at hrev; cases hrev
          | some r => rw [hbr] at hrev; exact ⟨r, rfl, by simpa using hrev⟩
        obtain ⟨hr, hat⟩ := find?_resources.mp (hb.symm.trans hbr)
        refine walks_seq (P := fun _ w' => (∀ s ∈ w'.registry.resources, ¬ s.At page "__page__") ∧
          w'.cloud = w.cloud ∧ w'.look = w.look) ?_ fun _ w' hw' h => walks_pure hw' ?_
        · refine walks_registry hI hw ⟨r, hr, hat, hphase⟩ trivial fun now w' hreg hcl hlk => ?_
          have hfree := not_at_generation now (hI.registry w hw) hr hat
          rw [← hreg] at hfree
          cases ((RegistryOp.generation page true).perform now w.registry).1 with
          | ok n => exact ⟨hfree, hcl, hlk⟩
          | error e => trivial
        · exact ⟨(find?_resources_none.mpr h.1).symm, h.2.1, h.2.2, by rintro ⟨⟩⟩
      · refine walks_seq (P := fun _ w' => w'.registry = w.registry ∧ w'.cloud = w.cloud ∧
          w'.look = w.look) (walks_registry hI hw trivial trivial
            fun _ _ hreg hcl hlk => ⟨hreg, hcl, hlk⟩) fun _ w' hw' h => walks_pure hw' ?_
        exact ⟨by rw [h.1]; exact hb, h.2.1, h.2.2, by rintro ⟨⟩⟩

theorem walks_bindingOrNew (hI : Stable S I) {isolation : UpstreamScope}
    {page grantId target : String} {generation : Nat} {b : Option Resource} (hw : I w)
    (hb : b = w.registry.resources.find? (page, ownerId grantId isolation))
    (hgrant : grantIdRe grantId = true)
    (hS : isolation = .guest → (∀ r ∈ w.registry.resources, ¬ r.At page grantId) →
      S.owner grantId w.cloud) :
    Walks S I (bindingOrNew cfg isolation page (ownerId grantId isolation) target generation b)
      (OnOk fun r w' => r ∈ w'.registry.resources ∧ r.At page (ownerId grantId isolation) ∧
        w'.look = w.look) w := by
  cases hbr : b with
  | some r =>
      obtain ⟨hr, hat⟩ := find?_resources.mp (hb.symm.trans hbr)
      exact walks_pure hw ⟨hr, hat, rfl⟩
  | none =>
      have hnone := find?_resources_none.mp (hb.symm.trans hbr)
      unfold bindingOrNew allocate
      refine walks_seq (P := fun _ w' => w'.look = w.look) ?_ fun _ w₁ hw₁ hlook₁ => ?_
      · refine walks_registry hI hw ⟨hnone, ?_⟩ ?_ fun now w₁ _ _ hlk => ?_
        · cases isolation with
          | guest => exact .inr hgrant
          | page => exact .inl rfl
        · intro hne
          cases isolation with
          | guest => exact hS rfl hnone
          | page => exact absurd rfl hne
        · cases (RegistryOp.perform now _ w.registry).1 with
          | ok a => exact hlk
          | error e => trivial
      · refine walks_seq (walks_binding hI hw₁) fun b w₂ hw₂ ⟨hb₂, hreg₂, _, hlook₂⟩ => ?_
        cases hbr : b with
        | none => exact walks_throw hw₂
        | some r =>
            obtain ⟨hr, hat⟩ := find?_resources.mp (hb₂.symm.trans hbr)
            exact walks_pure hw₂ ⟨hreg₂ ▸ hr, hat, hlook₂.trans hlook₁⟩

/-- The row of a resource that is ready under its CRID and public key. -/
def World.Ready (w : World) (page owner crid : String) : Prop :=
  ∃ r ∈ w.registry.resources, r.At page owner ∧ r.crid = some crid ∧ r.phase = .ready

theorem walks_bindIdentity (hI : Stable S I) {page owner crid publicKey : String} {r : Resource}
    (hw : I w) (hr : r ∈ w.registry.resources) (hat : r.At page owner)
    (hphase : r.phase = .creating) (hcrid : cridRe crid = true)
    (hkey : strip publicKey = publicKey ∧ publicKey ≠ "") :
    Walks S I (bindIdentity page owner crid publicKey)
      (OnOk fun _ w' => w'.Ready page owner crid ∧ w'.look = w.look) w := by
  unfold bindIdentity
  refine walks_attempt (P := OnOk fun _ w' => w'.Ready page owner crid ∧ w'.look = w.look) ?_
    fun o w₁ hw₁ h₁ => ?_
  · refine walks_registry hI hw ⟨hcrid, hkey, r, hr, hat, hphase⟩ trivial
      fun now w₁ hreg _ hlk => ?_
    simp only [RegistryOp.perform] at hreg ⊢
    split
    · trivial
    · rename_i hfree
      rw [if_neg hfree] at hreg
      refine ⟨⟨{ r with crid := some crid, publicKey := some publicKey, phase := .ready }, ?_, hat,
        rfl, rfl⟩, hlk⟩
      rw [hreg]
      exact (changes_setResource hr hat _).mpr (.inr rfl)
  · split
    · exact walks_pure hw₁ h₁
    · exact walks_throw hw₁
    · exact walks_throw hw₁

theorem confirmedIdentity_eq_some {target crid publicKey : String} {reply : Published}
    (h : confirmedIdentity target reply = some (crid, publicKey)) :
    reply.crid = some crid ∧ reply.resourceId = some publicKey ∧ cridRe crid = true ∧
      publicKey ≠ "" := by
  unfold confirmedIdentity at h
  split at h
  · rename_i c k hc hk
    split at h
    · rename_i hok
      cases h
      exact ⟨hc, hk, hok.1, hok.2.1⟩
    · cases h
  · cases h

theorem walks_publishResource (hI : Stable S I) {page owner target : String} {r : Resource}
    (hw : I w) (hr : r ∈ w.registry.resources) (hat : r.At page owner)
    (hphase : r.phase = .creating) :
    Walks S I (publishResource page owner target r.connectorId)
      (OnOk fun p w' => w'.Ready page owner p.1 ∧ w'.look = w.look ∧
        cridRe p.1 = true ∧ strip p.2 = p.2 ∧ p.2 ≠ "") w := by
  unfold publishResource
  refine walks_seq (P := fun reply w' => r ∈ w'.registry.resources ∧ w'.look = w.look ∧
    ∀ k, reply.resourceId = some k → strip k = k) ?_ fun reply w₁ hw₁ ⟨hr₁, hlook₁, hkey⟩ => ?_
  · refine walks_ask_ok hI hw ⟨r, hr, rfl⟩ fun t w₁ hs => ⟨?_, hs.look, ?_⟩
    · exact hs.registry ▸ hr
    · intro k hk
      obtain ⟨k', -, rfl⟩ := Option.map_eq_some_iff.mp hk
      exact strip_strip k'
  · split
    · exact walks_throw hw₁
    · rename_i crid publicKey hid
      obtain ⟨-, hk, hcrid, hne⟩ := confirmedIdentity_eq_some hid
      refine walks_seq (walks_bindIdentity hI hw₁ hr₁ hat hphase hcrid ⟨hkey _ hk, hne⟩)
        fun _ w₂ hw₂ h₂ => walks_pure hw₂ ?_
      exact ⟨h₂.1, h₂.2.trans hlook₁, hcrid, hkey _ hk, hne⟩

theorem walks_identity (hI : Stable S I) {page owner target : String} {r : Resource}
    (hw : I w) (hr : r ∈ w.registry.resources) (hat : r.At page owner) :
    Walks S I (identity page owner target r)
      (OnOk fun p w' => w'.Ready page owner p.1 ∧ w'.look = w.look ∧
        cridRe p.1 = true ∧ strip p.2 = p.2 ∧ p.2 ≠ "") w := by
  unfold identity
  have hg := hI.registry w hw
  split
  · rename_i hphase
    exact walks_publishResource hI hw hr hat hphase
  · rename_i crid publicKey hphase hc hk
    exact walks_pure hw ⟨⟨r, hr, hat, hc, hphase⟩, rfl, hg.crid_re r hr crid hc,
      hg.public_key r hr publicKey hk⟩
  · exact walks_throw hw
  · exact walks_throw hw
  · exact walks_throw hw

/-- What the client of a resource is for: a row that is ready, neither
retiring nor revoked. -/
structure Client.For (c : Client) (w : World) (page grantId : String)
    (isolation : UpstreamScope) : Prop where
  ready : w.Ready page (ownerId grantId isolation) c.resourceId
  crid : cridRe c.resourceId = true
  publicKey : c.resourcePublicKey ≠ ""
  scope : c.resourceScope = isolation

/-- **`ensure`.** The client it returns is for a row that is ready. -/
theorem walks_ensure (hI : Stable S I) {page grantId target : String} {isolation : UpstreamScope}
    (hw : I w)
    (hS : isolation = .guest → (∀ r ∈ w.registry.resources, ¬ r.At page grantId) →
      S.owner grantId w.cloud) :
    Walks S I (ensure cfg page grantId target isolation)
      (OnOk fun c w' => c.For w' page grantId isolation ∧ w'.look = w.look ∧
        grantIdRe grantId = true) w := by
  unfold ensure
  split
  · exact walks_throw hw
  rename_i hvalid
  have hgrant : grantIdRe grantId = true := by
    rw [not_or, Bool.not_eq_false, Bool.not_eq_false] at hvalid
    exact hvalid.2
  refine walks_seq (walks_binding hI hw) fun b w₁ hw₁ ⟨hb, hreg₁, hcloud₁, hlook₁⟩ => ?_
  refine walks_seq (walks_pageGeneration hI grantId hw₁ (by rw [hreg₁]; exact hb))
    fun p w₂ hw₂ ⟨hb₂, hcloud₂, hlook₂, hreg₂⟩ => ?_
  refine walks_seq (walks_bindingOrNew cfg hI hw₂ hb₂ hgrant ?_)
    fun r w₃ hw₃ ⟨hr, hat, hlook₃⟩ => ?_
  · intro hiso hnone
    rw [hcloud₂, hcloud₁]
    exact hS hiso fun r hr => hnone r (by rw [hreg₂ hiso, hreg₁]; exact hr)
  split
  · exact walks_throw hw₃
  refine walks_seq (walks_identity hI hw₃ hr hat)
    fun q w₄ hw₄ ⟨hready, hlook₄, hcrid, hkey, hne⟩ => ?_
  refine walks_seq (P := fun _ w' => w'.registry = w₄.registry ∧ w'.look = w₄.look) ?_
    fun _ w₅ hw₅ ⟨hreg₅, hlook₅⟩ => walks_pure hw₅ ?_
  · unfold ensureReady
    split
    · exact walks_ask_ok hI hw₄ trivial fun t w' hs => ⟨hs.registry, hs.look⟩
    · exact walks_pure hw₄ ⟨rfl, rfl⟩
  · have hid : (Client.new q.1 q.2 isolation).resourceId = q.1 := strip_crid hcrid
    refine ⟨⟨?_, ?_, ?_, rfl⟩, ?_, hgrant⟩
    · rw [hid]
      unfold World.Ready
      rwa [hreg₅]
    · rwa [hid]
    · show strip q.2 ≠ ""
      rwa [hkey]
    · rw [hlook₅, hlook₄, hlook₃, hlook₂, hlook₁]

/-! ## Background passes -/

/-- What every question keeps is kept by a program. -/
theorem walks_keep {α : Type} {x : BrokerM α} {Q : Except Failure α → World → Prop}
    {J : World → Prop} (h : Walks S I x Q w) (hJ : J w)
    (hstep : ∀ t e w, I w → J w → e.Pre S w → J (Op.step t e w).2) :
    Walks S I x (fun r w' => Q r w' ∧ J w') w := by
  exact ⟨Prog.holds_imp (walks_with h hJ hstep).holds (fun _ hw => hw.1) fun _ _ _ _ hev => hev⟩

/-- There is a row under the key. -/
def World.Present (w : World) (page grantId : String) : Prop :=
  ∃ r ∈ w.registry.resources, r.At page grantId

/-- A row stays under its key, unless it is a pool that is put away. -/
theorem present_step {page grantId : String} (hne : grantId ≠ "__page__") (t : Tick) (e : Op)
    (hg : w.registry.Inv) (hpre : e.Pre S w) (h : w.Present page grantId) :
    (Op.step t e w).2.Present page grantId := by
  have hs := same_meet t w
  have hmeet : (t.meet w).Present page grantId := by
    unfold World.Present
    rwa [hs.registry]
  rcases step_cases t e w with he | he | he <;> rw [he]
  · exact hmeet
  · cases e <;> exact hmeet
  · cases e with
    | registry e =>
        obtain ⟨r, hr, hat⟩ := h
        obtain ⟨-, hmoves, -⟩ := RegistryOp.perform_inv t.now e hg hpre.1
        obtain ⟨s, hs', hm⟩ := hmoves.kept r hr
        refine ⟨s, ?_, hm.page.trans hat.1, ?_⟩
        · rw [Op.perform, hs.registry]
          exact hs'
        · rcases hm.name with hn | ⟨hn, -⟩
          · exact hn.trans hat.2
          · exact absurd (hat.2.symm.trans hn) hne
    | _ => exact hmeet

/-- A row that is revoked stays so. -/
theorem revoked_step {page grantId : String} {crid : Option String} (hne : grantId ≠ "__page__")
    (t : Tick) (e : Op) (hg : w.registry.Inv) (hpre : e.Pre S w) (h : w.Revoked page grantId crid) :
    (Op.step t e w).2.Revoked page grantId crid := by
  have hs := same_meet t w
  have hmeet : (t.meet w).Revoked page grantId crid := by
    unfold World.Revoked
    rwa [hs.registry]
  rcases step_cases t e w with he | he | he <;> rw [he]
  · exact hmeet
  · cases e <;> exact hmeet
  · cases e with
    | registry e =>
        obtain ⟨r, hr, hat, hc, hp⟩ := h
        obtain ⟨-, hmoves, -⟩ := RegistryOp.perform_inv t.now e hg hpre.1
        obtain ⟨s, hs', hm⟩ := hmoves.kept r hr
        refine ⟨s, ?_, ⟨hm.page.trans hat.1, ?_⟩, ?_, ?_⟩
        · rw [Op.perform, hs.registry]
          exact hs'
        · rcases hm.name with hn | ⟨hn, -⟩
          · exact hn.trans hat.2
          · exact absurd (hat.2.symm.trans hn) hne
        · rcases hm.crid with hcrid | ⟨-, hcr, -⟩
          · exact hcrid.trans hc
          · rw [hp] at hcr
            cases hcr
        · have hphase := hm.phase
          rw [hp] at hphase
          generalize s.phase = p at hphase
          cases hphase
          rfl
    | _ => exact hmeet

theorem walks_drainRetirementRows (hI : Stable S I) (hS : ∀ p g c l, S.resource p g c l)
    {qs : List Retirement} (hw : I w) :
    Walks S I (drainRetirementRows cfg qs) (OnOk fun _ _ => True) w := by
  induction qs generalizing w with
  | nil => exact walks_pure hw trivial
  | cons q qs ih =>
      unfold drainRetirementRows
      refine walks_attempt (walks_revoke cfg hI hw fun _ _ _ _ _ => hS _ _ _ _)
        fun r w₁ hw₁ _ => ?_
      split
      · exact ih hw₁
      · exact walks_seq (P := fun _ _ => True)
          (walks_registry hI hw₁ trivial trivial fun _ _ _ _ _ => trivial)
          fun _ w₂ hw₂ _ => ih hw₂
      · exact walks_throw hw₁

theorem walks_drainRetirements (hI : Stable S I) (hS : ∀ p g c l, S.resource p g c l) (hw : I w) :
    Walks S I (drainRetirements cfg) (OnOk fun _ _ => True) w := by
  unfold drainRetirements
  exact walks_seq (P := fun _ _ => True)
    (walks_registry hI hw trivial trivial fun _ _ _ _ _ => trivial)
    fun _ w₁ hw₁ _ => walks_drainRetirementRows cfg hI hS hw₁

/-- What a callback that finds no mapping tells about the resource of a
grant. -/
def Judged (S : Side) (page grantId : String) (w : World) : Prop :=
  (∃ r ∈ w.registry.resources, r.At page grantId ∧ r.phase ≠ .revoked) →
    ∀ c, S.resource page grantId c w.look

theorem walks_retireOrphan (hI : Stable S I) {r : Resource} (hw : I w)
    (hne : r.grantId ≠ "__page__") (hpresent : w.Present r.page r.grantId)
    (hJ : Judged S r.page r.grantId w) :
    Walks S I (retireOrphan cfg r) (OnOk fun _ _ => True) w := by
  unfold retireOrphan orphanCrid
  split
  · obtain ⟨s, hs, hat⟩ := hpresent
    have hensure : Walks S I (ensure cfg r.page r.grantId r.target .guest)
        (OnOk fun c w' => w'.Ready r.page r.grantId c.resourceId ∧ w'.look = w.look) w :=
      walks_ok (walks_ensure cfg hI hw fun _ hnone => absurd hat (hnone s hs))
        fun c w' _ h => ⟨h.1.ready, h.2.1⟩
    refine walks_seq (P := fun _ w' => w'.look = w.look ∧ s.phase ≠ .revoked) ?_
      fun crid w₁ hw₁ ⟨hlook, hphase⟩ => ?_
    · by_cases hrev : s.phase = .revoked
      · -- a revoked row stays revoked, and no client comes back for it
        refine walks_seq (P := fun _ _ => False) ?_ fun c w₁ hw₁ h => h.elim
        refine walks_mono (walks_keep hensure (J := fun w => w.Revoked r.page r.grantId s.crid)
          ⟨s, hs, hat, rfl, hrev⟩ fun t e w hw h hpre =>
            revoked_step hne t e (hI.registry w hw) hpre h) fun o w₁ hw₁ h => ?_
        cases o with
        | error e => trivial
        | ok c =>
            obtain ⟨⟨⟨a, ha, haat, -, hap⟩, -⟩, b, hb, hbat, -, hbp⟩ := h
            obtain rfl := Resource.At.unique ha hb haat hbat
            rw [hap] at hbp
            cases hbp
      · exact walks_seq hensure fun c w₁ hw₁ h => walks_pure hw₁ ⟨h.2, hrev⟩
    · refine walks_seq (P := fun _ _ => True) ?_ fun _ w₂ hw₂ _ => walks_pure hw₂ trivial
      refine walks_ok (walks_revoke cfg hI hw₁ fun _ _ _ _ _ => ?_) fun _ _ _ _ => trivial
      rw [hlook]
      exact hJ ⟨s, hs, hat, hphase⟩ _
  · refine walks_seq (P := fun _ w' => w' = w) (walks_pure hw rfl) fun crid w₁ hw₁ he => ?_
    subst he
    refine walks_seq (P := fun _ _ => True) ?_ fun _ w₂ hw₂ _ => walks_pure hw₂ trivial
    refine walks_ok (walks_revoke cfg hI hw₁ fun s hs hat hc hp => ?_) fun _ _ _ _ => trivial
    exact hJ ⟨s, hs, hat, hp⟩ _

theorem walks_retireOrphanRows (hI : Stable S I) {mappingExists : String → String → BrokerM Bool}
    (hcall : ∀ page grantId w, I w → Walks S I (mappingExists page grantId)
      (OnOk fun b w' => b = false → Judged S page grantId w') w)
    {rs : List Resource} (hw : I w) (hrs : ∀ r ∈ rs, r.grantId ≠ "__page__" ∧
      w.Present r.page r.grantId) :
    Walks S I (retireOrphanRows cfg mappingExists rs) (OnOk fun _ _ => True) w := by
  induction rs generalizing w with
  | nil => exact walks_pure hw trivial
  | cons r rs ih =>
      obtain ⟨hne, hpresent⟩ := hrs r List.mem_cons_self
      -- the rows that are left stay in the database whatever is asked
      have keep : ∀ {α : Type} {x : BrokerM α} {Q : Except Failure α → World → Prop} {w : World},
          Walks S I x Q w → (∀ s ∈ r :: rs, s.grantId ≠ "__page__" ∧ w.Present s.page s.grantId) →
          Walks S I x (fun o w' => Q o w' ∧
            ∀ s ∈ r :: rs, s.grantId ≠ "__page__" ∧ w'.Present s.page s.grantId) w :=
        fun hx hall => walks_keep hx hall fun t e w hw hall hpre s hs =>
          ⟨(hall s hs).1, present_step (hall s hs).1 t e (hI.registry w hw) hpre (hall s hs).2⟩
      unfold retireOrphanRows
      refine walks_seq (P := fun b w' => (b = false → Judged S r.page r.grantId w') ∧
        ∀ s ∈ r :: rs, s.grantId ≠ "__page__" ∧ w'.Present s.page s.grantId) ?_
        fun b w₁ hw₁ ⟨hjudged, hall⟩ => ?_
      · refine walks_mono (keep (hcall r.page r.grantId w hw) hrs) fun o w₁ _ h => ?_
        cases o with
        | ok b => exact h
        | error e => trivial
      cases b with
      | true => exact ih hw₁ fun s hs => hall s (List.mem_cons_of_mem _ hs)
      | false =>
          obtain ⟨-, hpresent₁⟩ := hall r List.mem_cons_self
          refine walks_attempt (keep (walks_retireOrphan cfg hI hw₁ hne hpresent₁ (hjudged rfl))
            hall) fun o w₂ hw₂ ⟨_, hall₂⟩ => ?_
          split
          · exact ih hw₂ fun s hs => hall₂ s (List.mem_cons_of_mem _ hs)
          · refine walks_seq (P := fun _ w' =>
              ∀ s ∈ r :: rs, s.grantId ≠ "__page__" ∧ w'.Present s.page s.grantId) ?_
              fun _ w₃ hw₃ hall₃ => ?_
            · refine walks_mono (keep (Q := OnOk fun _ _ => True) (walks_registry hI hw₂ trivial
                trivial fun _ _ _ _ _ => trivial) hall₂) fun o w₃ _ h => ?_
              cases o with
              | ok a => exact h.2
              | error e => trivial
            · split
              · exact walks_pure hw₃ trivial
              · exact ih hw₃ fun s hs => hall₃ s (List.mem_cons_of_mem _ hs)
          · exact walks_throw hw₂

theorem walks_retireOrphans (hI : Stable S I) {mappingExists : String → String → BrokerM Bool}
    (hcall : ∀ page grantId w, I w → Walks S I (mappingExists page grantId)
      (OnOk fun b w' => b = false → Judged S page grantId w') w) (hw : I w) :
    Walks S I (retireOrphans cfg mappingExists) (OnOk fun _ _ => True) w := by
  unfold retireOrphans
  refine walks_seq (P := fun rows w' => ∀ rs, rows = some rs → ∀ r ∈ rs,
    r.grantId ≠ "__page__" ∧ w'.Present r.page r.grantId) ?_ fun rows w₁ hw₁ hrows => ?_
  · refine walks_registry hI hw trivial trivial fun now w₁ hreg _ _ => ?_
    simp only [RegistryOp.perform] at hreg ⊢
    split
    · rintro _ ⟨⟩
    · rename_i hgate
      rw [if_neg hgate] at hreg
      rintro rs ⟨⟩ r hr
      obtain ⟨hr, hsel⟩ := List.mem_filter.mp (List.mem_of_mem_take hr)
      rw [decide_eq_true_eq] at hsel
      exact ⟨hsel.1, r, hreg ▸ hr, rfl, rfl⟩
  · split
    · exact walks_pure hw₁ trivial
    · exact walks_retireOrphanRows cfg hI hcall hw₁ (hrows _ rfl)

theorem walks_retirePoolRows (hI : Stable S I) {pageExists : String → BrokerM Bool}
    (hcall : ∀ page w, I w → Walks S I (pageExists page)
      (OnOk fun b w' => b = false → Judged S page "__page__" w') w)
    {rs : List Resource} (hw : I w) :
    Walks S I (retirePoolRows cfg pageExists rs) (OnOk fun _ _ => True) w := by
  induction rs generalizing w with
  | nil => exact walks_pure hw trivial
  | cons r rs ih =>
      unfold retirePoolRows
      refine walks_seq (hcall r.page w hw) fun b w₁ hw₁ hjudged => ?_
      cases b with
      | true => exact ih hw₁
      | false =>
          refine walks_attempt (walks_revoke cfg hI hw₁ fun s hs hat _ hp =>
            hjudged rfl ⟨s, hs, hat, hp⟩ _) fun o w₂ hw₂ _ => ?_
          split
          · exact ih hw₂
          · exact ih hw₂
          · exact walks_throw hw₂

theorem walks_retireDeletedPagePools (hI : Stable S I) {pageExists : String → BrokerM Bool}
    (hcall : ∀ page w, I w → Walks S I (pageExists page)
      (OnOk fun b w' => b = false → Judged S page "__page__" w') w) (hw : I w) :
    Walks S I (retireDeletedPagePools cfg pageExists) (OnOk fun _ _ => True) w := by
  unfold retireDeletedPagePools
  exact walks_seq (P := fun _ _ => True)
    (walks_registry hI hw trivial trivial fun _ _ _ _ _ => trivial)
    fun _ w₁ hw₁ _ => walks_retirePoolRows cfg hI hcall hw₁

end Walk

end LayerV

end AccessPages
