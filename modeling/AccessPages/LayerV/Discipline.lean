import AccessPages.LayerV.Phases
/-!
# LayerV — what the programs know when they ask

`Op.Pre` collects what is known of the world at each question: a resource
is published only when its row is there, an invitation is asked for only
when the journal names it, a mapping is removed only when what it names
is gone. The programs are walked through once, here; every invariant is
then a matter of single questions. `Side` is what differs from caller to
caller: whether there are resets, whether an existence test may fail, what
is known of a new grant, and what of the invitation or resource that is
about to be deleted.
-/

namespace AccessPages

namespace LayerV

open Pages (UpstreamScope grantIdRe)

/-! ## What others can do -/

/-- Only the gateway, the policy store and the queue of revocations
differ. -/
structure World.Same (w w' : World) : Prop where
  registry : w'.registry = w.registry
  mints : w'.mints = w.mints
  mappings : w'.mappings = w.mappings
  cloud : w'.cloud = w.cloud
  look : w'.look = w.look

theorem World.Same.refl (w : World) : w.Same w := ⟨rfl, rfl, rfl, rfl, rfl⟩

theorem same_apply (w : World) (m : Meanwhile) : w.Same (m.apply w) := by
  cases m with
  | queue page grantId due =>
      simp only [Meanwhile.apply]
      split <;> exact ⟨rfl, rfl, rfl, rfl, rfl⟩
  | policy pages => exact ⟨rfl, rfl, rfl, rfl, rfl⟩
  | gateway pages =>
      simp only [Meanwhile.apply]
      split <;> exact ⟨rfl, rfl, rfl, rfl, rfl⟩
  | owe grant now =>
      simp only [Meanwhile.apply]
      split <;> exact ⟨rfl, rfl, rfl, rfl, rfl⟩
  | drain => exact ⟨rfl, rfl, rfl, rfl, rfl⟩
  | die => exact ⟨rfl, rfl, rfl, rfl, rfl⟩
  | turn t => exact ⟨rfl, rfl, rfl, rfl, rfl⟩

/-- The world after what others did. -/
def Tick.meet (t : Tick) (w : World) : World := t.meanwhile.foldl Meanwhile.apply w

/-- What each thing others do keeps, they keep. -/
theorem meet_induction {J : World → Prop} (hstep : ∀ w m, J w → J (Meanwhile.apply w m)) (t : Tick)
    {w : World} (hw : J w) : J (t.meet w) := by
  unfold Tick.meet
  generalize t.meanwhile = ms
  induction ms generalizing w with
  | nil => exact hw
  | cons m ms ih => exact ih (hstep w m hw)

theorem same_meet (t : Tick) (w : World) : w.Same (t.meet w) := by
  refine meet_induction (fun v m hv => ?_) t (World.Same.refl w)
  have h := same_apply v m
  exact ⟨h.registry.trans hv.registry, h.mints.trans hv.mints, h.mappings.trans hv.mappings,
    h.cloud.trans hv.cloud, h.look.trans hv.look⟩

/-- **What a question can do.** It fails, and a request upstream may still
be applied; or it is performed. -/
theorem step_cases (t : Tick) (e : Op) (w : World) :
    Op.step t e w = (.error (e.failure t), t.meet w) ∨
    Op.step t e w = (.error (e.failure t), e.apply t (t.meet w)) ∨
    Op.step t e w = e.perform t (t.meet w) := by
  unfold Op.step
  split
  · by_cases h : t.applied
    · exact .inr (.inl (by simp only [h, if_true]; rfl))
    · exact .inl (by simp only [h]; rfl)
  · exact .inr (.inr rfl)

/-! ## What is known -/

/-- Only invitations went. -/
structure World.Purges (w w' : World) : Prop where
  registry : w'.registry = w.registry
  mints : w'.mints = w.mints
  mappings : w'.mappings = w.mappings
  created : w'.cloud.created = w.cloud.created
  look : w'.look = w.look
  invitations : ∀ i ∈ w'.cloud.invitations, i ∈ w.cloud.invitations

theorem World.Same.purges {w w' : World} (h : w.Same w') : w.Purges w' :=
  ⟨h.registry, h.mints, h.mappings, h.cloud ▸ rfl, h.look, fun _ hi => h.cloud ▸ hi⟩

theorem World.Purges.trans {w w' w'' : World} (h : w.Purges w') (h' : w'.Purges w'') :
    w.Purges w'' :=
  ⟨h'.registry.trans h.registry, h'.mints.trans h.mints, h'.mappings.trans h.mappings,
    h'.created.trans h.created, h'.look.trans h.look,
    fun i hi => h.invitations i (h'.invitations i hi)⟩

/-- What depends on the caller. -/
structure Side where
  reset : Prop
  blind : Prop
  used : String → Prop
  owner : String → Cloud → Prop
  qurl : String → String → World → Prop
  resource : String → String → String → Look → Prop
  qurl_purges : ∀ r q w w', w.Purges w' → qurl r q w → qurl r q w'

/-- The resource of an invitation: the guest's own, or a pool of the page. -/
def Owns (scope : UpstreamScope) (owner grantId : String) : Prop :=
  match scope with
  | .guest => owner = grantId
  | .page => grantIdRe owner = false

/-- The mapping of a grant that was given an invitation. -/
structure Mapping.Describes (m : Mapping) (i : Invitation) : Prop where
  pageId : m.pageId = i.page
  grantId : m.grantId = i.grantId
  qurlId : m.qurlId = i.qurlId
  resourceCrid : m.resourceCrid = some i.resource
  upstreamScope : m.upstreamScope = some i.scope

/-- What an invitation gave access to is gone: the guest's resource is
revoked, or the invitation was reported deleted. -/
def World.Retired (w : World) (i : Invitation) : Prop :=
  match i.scope with
  | .guest => ∃ r ∈ w.registry.resources, r.At i.page i.grantId ∧ r.crid = some i.resource ∧
      r.phase = .revoked
  | .page => (i.resource, i.qurlId) ∈ w.cloud.deletedQurls

/-- The grant has the mapping in its file. -/
def World.Mapped (w : World) (page grantId : String) (m : Mapping) : Prop :=
  (mappingPath page grantId, m) ∈ w.mappings

/-- What is known besides at a transaction. -/
def RegistryOp.Known (S : Side) (w : World) : RegistryOp → Prop
  | .insert _ owner _ _ => owner ≠ "__page__" → S.owner owner w.cloud
  | .finishRetire page grantId => ∀ r ∈ w.registry.resources, r.At page grantId →
      ∀ c, r.crid = some c → c ∈ w.cloud.deletedResources
  | .invalidate => S.reset
  | _ => True

/-- The CRID is that of a row that is retiring and may be deleted. -/
def World.Deletable (S : Side) (w : World) (crid : String) : Prop :=
  ∃ r ∈ w.registry.resources, r.crid = some crid ∧ r.phase = .retiring ∧
    S.resource r.page r.grantId crid w.look

/-- **What is known at a question.** -/
def Op.Pre (S : Side) (w : World) : Op → Prop
  | .registry e => e.Pre w.registry ∧ e.Known S w
  | .publish connectorId _ => ∃ r ∈ w.registry.resources, r.connectorId = connectorId
  | .prepareMint _ grantId resource _ =>
      S.used grantId ∧ grantIdRe grantId = true ∧ strip resource = resource ∧ resource ≠ "" ∧
      (∀ i ∈ w.cloud.created, i.grantId ≠ grantId) ∧ ∀ m ∈ w.mints, m.grantId ≠ grantId
  | .mint crid scope page grantId wanted =>
      S.used grantId ∧ grantIdRe grantId = true ∧ (∀ i ∈ w.cloud.created, i.grantId ≠ grantId) ∧
      (∃ r ∈ w.registry.resources, r.crid = some crid ∧ r.page = page ∧
        Owns scope r.grantId grantId) ∧
      (∀ m ∈ w.mints, m.grantId = grantId → m.page = page ∧ scope = .page ∧ m.resource = crid ∧
        m.label = wanted.label) ∧
      (scope = .page → (∃ m ∈ w.mints, m.page = page ∧ m.grantId = grantId) ∧
        ∀ r ∈ w.registry.resources, r.grantId ≠ grantId)
  | .writeMapping m => S.used m.grantId ∧ ∃ i ∈ w.cloud.created, m.Describes i
  | .unlinkMapping page grantId => ∀ m, w.Mapped page grantId m →
      ∀ i ∈ w.cloud.created, m.Describes i → w.Retired i
  | .completeMint page grantId =>
      (∃ m, w.Mapped page grantId m ∧ m.pageId = page ∧ m.grantId = grantId) ∨
      ∀ i ∈ w.cloud.invitations, i.page = page → i.grantId = grantId → i.scope ≠ .page
  | .deleteRevocation page grantId => ∀ m, ¬ w.Mapped page grantId m
  | .deleteQurl resource qurlId => S.qurl resource qurlId w ∧
      ∃ i ∈ w.cloud.created, i.resource = resource ∧ i.qurlId = qurlId
  | .deleteResource crid => w.Deletable S crid
  | .cleanup crid => w.Deletable S crid
  | _ => True

/-- What others do takes nothing away from it. -/
theorem Op.Pre.same {S : Side} {w w' : World} {e : Op} (h : e.Pre S w) (hs : w.Same w') :
    e.Pre S w' := by
  cases e with
  | registry e =>
      refine ⟨hs.registry ▸ h.1, ?_⟩
      have hknown := h.2
      cases e with
      | insert page owner connectorId target => exact fun hne => hs.cloud ▸ hknown hne
      | finishRetire page grantId =>
          show ∀ r ∈ w'.registry.resources, _
          rw [hs.registry, hs.cloud]
          exact hknown
      | _ => exact hknown
  | deleteQurl resource qurlId =>
      refine ⟨S.qurl_purges _ _ _ _ hs.purges h.1, ?_⟩
      rw [hs.cloud]
      exact h.2
  | _ =>
      first
      | trivial
      | simpa only [Op.Pre, World.Deletable, World.Mapped, World.Retired, hs.registry, hs.mints,
          hs.mappings, hs.cloud, hs.look] using h

/-- `S'` allows its programs less than `S`, and stands what `S` does. -/
structure Side.Le (S' S : Side) : Prop where
  reset : S'.reset → S.reset
  blind : S.blind → S'.blind
  used : ∀ g, S'.used g → S.used g
  owner : ∀ g c, S'.owner g c → S.owner g c
  qurl : ∀ r q w, S'.qurl r q w → S.qurl r q w
  resource : ∀ p g c l, S'.resource p g c l → S.resource p g c l

theorem Op.Pre.le {S S' : Side} {w : World} {e : Op} (h : e.Pre S' w) (hS : S'.Le S) :
    e.Pre S w := by
  have deletable : ∀ {crid : String}, w.Deletable S' crid → w.Deletable S crid :=
    fun ⟨r, hr, hc, hp, hd⟩ => ⟨r, hr, hc, hp, hS.resource _ _ _ _ hd⟩
  cases e with
  | registry e =>
      refine ⟨h.1, ?_⟩
      have hknown := h.2
      cases e with
      | insert page owner connectorId target => exact fun hne => hS.owner _ _ (hknown hne)
      | invalidate => exact hS.reset hknown
      | _ => exact hknown
  | prepareMint page grantId resource label => exact ⟨hS.used _ h.1, h.2⟩
  | mint crid scope page grantId wanted => exact ⟨hS.used _ h.1, h.2⟩
  | writeMapping m => exact ⟨hS.used _ h.1, h.2⟩
  | deleteQurl resource qurlId => exact ⟨hS.qurl _ _ _ h.1, h.2⟩
  | deleteResource crid => exact deletable h
  | cleanup crid => exact deletable h
  | _ => exact h

/-- The ticks of a side. -/
abbrev Side.Tick (S : Side) := {t : LayerV.Tick // t.blind = true → S.blind}

/-- One question, at one of them. -/
def Side.step (S : Side) (t : S.Tick) (e : Op) (w : World) : e.Ans × World := e.step t.1 w

/-- A question was asked with that knowledge. -/
def Asked (S : Side) (ev : Event Op Op.Ans World) : Prop := ev.op.Pre S ev.before

/-- An invariant the questions keep, with at least the invariant of the
resource database. -/
structure Stable (S : Side) (I : World → Prop) : Prop where
  registry : ∀ w, I w → w.registry.Inv
  step : ∀ t e w, I w → e.Pre S w → I (Op.step t e w).2

theorem Stable.le {S S' : Side} {I : World → Prop} (hI : Stable S I) (hS : S'.Le S) :
    Stable S' I :=
  ⟨hI.registry, fun t e w hw hpre => hI.step t e w hw (hpre.le hS)⟩

/-- Only a normal end says something. -/
def OnOk {α : Type} (P : α → World → Prop) : Except Failure α → World → Prop
  | .ok a, w => P a w
  | .error _, _ => True

/-! ## Rules -/

section Rules

variable {S : Side} {I : World → Prop} {α β : Type} {w : World}

/-- **The rule a program is checked by**: whatever its questions meet, `I`
holds and they are asked knowingly, and `Q` holds of the outcome. -/
structure Walks (S : Side) (I : World → Prop) (x : BrokerM α) (Q : Except Failure α → World → Prop)
    (w : World) : Prop where
  holds : x.run.Holds S.step I (Asked S) Q w

theorem walks_mono {x : BrokerM α} {Q Q' : Except Failure α → World → Prop}
    (h : Walks S I x Q w) (hQ : ∀ r w', I w' → Q r w' → Q' r w') : Walks S I x Q' w :=
  ⟨Prog.holds_mono h.holds hQ⟩

theorem walks_ok {x : BrokerM α} {P P' : α → World → Prop} (h : Walks S I x (OnOk P) w)
    (hP : ∀ a w', I w' → P a w' → P' a w') : Walks S I x (OnOk P') w := by
  refine walks_mono h fun r w' hw hr => ?_
  cases r with
  | ok a => exact hP a w' hw hr
  | error e => trivial

theorem walks_pure {a : α} {Q : Except Failure α → World → Prop} (hw : I w) (h : Q (.ok a) w) :
    Walks S I (pure a) Q w := ⟨hw, h⟩

theorem walks_throw {e : Failure} {P : α → World → Prop} (hw : I w) :
    Walks S I (throw e) (OnOk P) w := ⟨hw, trivial⟩

theorem walks_raise {e : Failure} {Q : Except Failure α → World → Prop} (hw : I w)
    (h : Q (.error e) w) : Walks S I (throw e) Q w := ⟨hw, h⟩

theorem walks_seq {x : BrokerM α} {f : α → BrokerM β} {P : α → World → Prop}
    {Q : β → World → Prop} (h : Walks S I x (OnOk P) w)
    (hf : ∀ a w', I w' → P a w' → Walks S I (f a) (OnOk Q) w') :
    Walks S I (x >>= f) (OnOk Q) w := by
  refine ⟨Prog.holds_except_bind (Prog.holds_mono h.holds fun r w' hw hr => ?_)⟩
  cases r with
  | ok a => exact (hf a w' hw hr).holds
  | error e => trivial

/-- The same where an exception says something too. -/
theorem walks_bind {x : BrokerM α} {f : α → BrokerM β} {P : Except Failure α → World → Prop}
    {Q : Except Failure β → World → Prop} (h : Walks S I x P w)
    (hok : ∀ a w', I w' → P (.ok a) w' → Walks S I (f a) Q w')
    (herr : ∀ e w', I w' → P (.error e) w' → Q (.error e) w') :
    Walks S I (x >>= f) Q w := by
  refine ⟨Prog.holds_except_bind (Prog.holds_mono h.holds fun r w' hw hr => ?_)⟩
  cases r with
  | ok a => exact (hok a w' hw hr).holds
  | error e => exact herr e w' hw hr

theorem walks_le {S' : Side} {x : BrokerM α} {Q : Except Failure α → World → Prop}
    (h : Walks S' I x Q w) (hS : S'.Le S) : Walks S I x Q w := by
  have hticks : x.run.Holds S.step I (Asked S') Q w :=
    Prog.holds_ticks (fun t : S.Tick => (⟨t.1, fun hb => hS.blind (t.2 hb)⟩ : S'.Tick)) h.holds
  exact ⟨Prog.holds_imp hticks (fun _ hw => hw) fun _ _ _ _ hpre => Op.Pre.le hpre hS⟩

/-- A side that stands every tick. -/
theorem Walks.all {x : BrokerM α} {Q : Except Failure α → World → Prop} (h : Walks S I x Q w)
    (hS : S.blind) : x.run.Holds Op.step I (Asked S) Q w :=
  Prog.holds_ticks (fun t => (⟨t, fun _ => hS⟩ : S.Tick)) h.holds

/-- Where no existence test fails, every side will do. -/
theorem Walks.asked {x : BrokerM α} {Q : Except Failure α → World → Prop} (h : Walks S I x Q w)
    {ts : List Tick} (hts : ∀ t ∈ ts, t.blind = false) :
    ∀ ev ∈ x.run.events Op.step ts w, Asked S ev :=
  ((Prog.holds_ticks (fun t : { t : Tick // t.blind = false } =>
    (⟨t.1, fun h => absurd (h.symm.trans t.2) nofun⟩ : S.Tick)) h.holds).meet_of hts).1

/-- What every question keeps holds throughout. -/
theorem walks_with {x : BrokerM α} {Q : Except Failure α → World → Prop} {J : World → Prop}
    (h : Walks S I x Q w) (hJ : J w)
    (hstep : ∀ t e w, I w → J w → e.Pre S w → J (Op.step t e w).2) :
    Walks S (fun w => I w ∧ J w) x (fun r w' => Q r w' ∧ J w') w := by
  have hall : x.run.Asks fun _ => True := by
    generalize x.run = p
    induction p with
    | ret a => trivial
    | op e k ih => exact ⟨trivial, ih⟩
  exact ⟨h.holds.keeps hall hJ fun t e w _ hw hJ hpre => hstep t.1 e w hw hJ hpre⟩

/-- A block with an `except` clause goes on with either outcome. -/
theorem walks_attempt {x : BrokerM α} {f : Except Failure α → BrokerM β}
    {P : Except Failure α → World → Prop} {Q : Except Failure β → World → Prop}
    (h : Walks S I x P w) (hf : ∀ r w', I w' → P r w' → Walks S I (f r) Q w') :
    Walks S I (attempt x >>= f) Q w := by
  refine ⟨Prog.holds_except_bind ?_⟩
  rw [show (attempt x).run = (x.run >>= fun r =>
    (pure (Except.ok r) : Prog Op Op.Ans (Except Failure (Except Failure α)))) from rfl,
    Prog.holds_bind]
  exact Prog.holds_mono h.holds fun r w' hw hr => ⟨hw, (hf r w' hw hr).holds⟩

theorem walks_lift {x : Except Failure α} {f : α → BrokerM β} {Q : β → World → Prop} (hw : I w)
    (hf : ∀ a, x = .ok a → Walks S I (f a) (OnOk Q) w) :
    Walks S I ((liftM x : BrokerM α) >>= f) (OnOk Q) w := by
  refine ⟨Prog.holds_except_bind (Prog.holds_except_lift.mpr ⟨hw, ?_⟩)⟩
  cases x with
  | ok a => exact (hf a rfl).holds
  | error e => trivial

/-- One question. -/
theorem walks_ask (hI : Stable S I) {e : Op} {Q : e.Ans → World → Prop} (hw : I w)
    (hpre : e.Pre S w) (hQ : ∀ t : S.Tick, Q (Op.step t.1 e w).1 (Op.step t.1 e w).2) :
    Walks S I (ask e) Q w :=
  ⟨hw, fun t => ⟨hpre, hI.step t.1 e w hw hpre, hQ t⟩⟩

/-- One question of which only a normal answer counts. -/
theorem walks_ask_ok (hI : Stable S I) {e : Op} {P : e.Res → World → Prop} (hw : I w)
    (hpre : e.Pre S w)
    (hP : ∀ (t : S.Tick) w', w.Same w' → OnOk P (e.perform t.1 w').1 (e.perform t.1 w').2) :
    Walks S I (ask e) (OnOk P) w := by
  refine walks_ask hI hw hpre fun t => ?_
  rcases step_cases t.1 e w with h | h | h <;> rw [h]
  · trivial
  · trivial
  · exact hP t _ (same_meet t.1 w)

end Rules

end LayerV

end AccessPages
