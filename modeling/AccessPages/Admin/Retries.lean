import AccessPages.Admin.Publication
/-!
# Admin — a pass over the pending policies

`retry_pending_policies` goes through the markers. While nothing fails, one
pass brings the policy store up to the gateway, whatever went wrong before,
unless a page on file can no longer be read.
-/

namespace AccessPages

namespace Admin

open Pages (Disk Page Grant validatePage validatePageId pageIdRe rawGrants calm calm_load
  NamesResource readContent marked validatePage_toJson validatePageId_of_re strip_pageId)

/-! ## Steps that succeed -/

/-- Nothing fails. -/
structure Tick.Calm (t : Tick) : Prop where
  file : t.file.fault = false
  sight : t.file.blind = false
  call : t.fault = false

theorem Tick.Calm.succeeds {t : Tick} (ht : t.Calm) (e : Pages.FileOp) :
    e.fails t.file = false := by
  cases e with
  | isFile q => exact ht.sight
  | _ => exact ht.file

/-- What a handler raises or returns, and the world it leaves, while nothing
fails. -/
structure Gives {α : Type} (x : AdminM α) (w : World) (r : Except Failure α) (w' : World) :
    Prop where
  gives : x.run.Gives Op.step Tick.Calm w r w'

/-- The file operations that no tick changes. -/
def Steady (e : Pages.FileOp) : Prop := ∀ t d, e.perform t d = e.quiet d

section Steps

variable {α β : Type} {w w' : World} {t : Tick} {id : String}

theorem gives_pure (a : α) : Gives (pure a) w (.ok a) w := ⟨⟨rfl, rfl⟩⟩

theorem gives_seq {x : AdminM α} {f : α → AdminM β} {a : α} {r : Except Failure β} {w'' : World}
    (hx : Gives x w (.ok a) w') (hf : Gives (f a) w' r w'') : Gives (x >>= f) w r w'' :=
  ⟨Prog.gives_except_bind hx.gives hf.gives⟩

theorem gives_attempt {x : AdminM α} {r : Except Failure α} (hx : Gives x w r w') :
    Gives (attempt x) w (.ok r) w' := ⟨Prog.gives_bind hx.gives ⟨rfl, rfl⟩⟩

theorem settle_calm (e : Op) (error : Failure) (ht : t.Calm) (w : World) :
    (e.settle t error w).1 = .ok () ∧ (e.settle t error w).2 = e.apply w := by
  unfold Op.settle
  rw [if_neg (by rw [ht.call]; exact Bool.false_ne_true)]
  exact ⟨rfl, rfl⟩

theorem gives_openMarker :
    Gives (ExceptT.mk (Prog.call (Op.openMarker id))) w (.ok ()) (w.marked id) :=
  ⟨fun _ ht => settle_calm (.openMarker id) (.page .os) ht w⟩

theorem gives_syncMarkers : Gives (ExceptT.mk (Prog.call Op.syncMarkers)) w (.ok ()) w :=
  ⟨fun _ ht => settle_calm .syncMarkers (.page .os) ht w⟩

theorem gives_unlinkMarker :
    Gives (ExceptT.mk (Prog.call (Op.unlinkMarker id))) w (.ok ()) (w.cleared id) :=
  ⟨fun _ ht => settle_calm (.unlinkMarker id) (.page .os) ht w⟩

theorem gives_put {policy : Json} :
    Gives (ExceptT.mk (Prog.call (Op.put id policy))) w (.ok ()) ((Op.put id policy).apply w) :=
  ⟨fun _ ht => settle_calm (.put id policy) .publish ht w⟩

theorem gives_remove :
    Gives (ExceptT.mk (Prog.call (Op.remove id))) w (.ok ()) ((Op.remove id).apply w) :=
  ⟨fun _ ht => settle_calm (.remove id) .publish ht w⟩

theorem gives_listMarkers :
    Gives (ExceptT.mk (Prog.call Op.listMarkers)) w (.ok w.pending) w := by
  refine ⟨fun t ht => ⟨?_, rfl⟩⟩
  show (if t.fault then _ else _) = _
  rw [if_neg (by rw [ht.call]; exact Bool.false_ne_true)]

/-- A method of the page store answers as it does when it runs alone. -/
theorem gives_store {x : Pages.FileM α} (hx : Prog.Returns Steady x fun _ => True) :
    Gives (store x) w ((calm x w.disk).1.mapError .page) (w.on (calm x w.disk).2) := by
  have hends := hx.ends
  refine ⟨?_⟩
  show Prog.Gives _ _ ((x.run.expand _) >>= _) _ _ _
  unfold calm
  generalize x.run = m at hends
  induction m generalizing w with
  | ret r => exact ⟨rfl, rfl⟩
  | op e k ih =>
      intro t ht
      have hstep : Op.step t (.file e) w = ((e.quiet w.disk).1, w.on (e.quiet w.disk).2) := by
        simp only [Op.step, fileOp_step]
        rw [if_neg (by rw [ht.succeeds e]; exact Bool.false_ne_true), hends.1]
        rfl
      have hrest := @ih (e.quiet w.disk).1 (w.on (e.quiet w.disk).2) (hends.2 _)
      rw [hstep]
      exact hrest

end Steps

/-! ## The publisher -/

section Publisher

variable [Python] {cfg : Config} {w : World} {id : String}

theorem gives_markerId (hid : pageIdRe id = true) : Gives (markerId id) w (.ok id) w := by
  unfold markerId
  rw [validatePageId_of_re hid]
  exact ⟨⟨rfl, rfl⟩⟩

theorem gives_mark (hc : cfg.configured = true) (hid : pageIdRe id = true) :
    Gives (mark cfg id) w (.ok ()) (w.marked id) := by
  unfold mark
  rw [if_pos hc]
  exact gives_seq (gives_markerId hid) (gives_seq gives_openMarker gives_syncMarkers)

theorem gives_prepare (hc : cfg.configured = true) (hid : pageIdRe id = true) :
    Gives (prepare cfg id) w (.ok ()) (w.marked id) := by
  unfold prepare
  exact gives_seq (gives_attempt (gives_mark hc hid)) (gives_pure ())

theorem gives_clear (hc : cfg.configured = true) (hid : pageIdRe id = true) :
    Gives (clear cfg id) w (.ok ()) (w.cleared id) := by
  unfold clear
  rw [if_pos hc]
  exact gives_seq (gives_attempt (gives_seq (gives_markerId hid)
    (gives_seq gives_unlinkMarker gives_syncMarkers))) (gives_pure ())

theorem gives_publish (hc : cfg.configured = true) (page : Page) :
    Gives (publish cfg page) w (.ok ())
      (((Op.put page.id (policyOf page)).apply (w.marked page.id)).cleared page.id) := by
  unfold publish
  refine gives_seq (gives_prepare hc page.id_re) ?_
  dsimp only
  rw [if_pos hc]
  exact gives_seq gives_put (gives_clear hc page.id_re)

theorem gives_deletePolicy (hc : cfg.configured = true) (hid : pageIdRe id = true) :
    Gives (deletePolicy cfg id) w (.ok ())
      (((Op.remove id).apply (w.marked id)).cleared id) := by
  unfold deletePolicy
  refine gives_seq (gives_prepare hc hid) ?_
  dsimp only
  rw [if_pos hc]
  exact gives_seq gives_remove (gives_clear hc hid)

end Publisher

/-! ## One page -/

section Page

variable [Python] {cfg : Config} {w w' : World} {p : String} {o : Option Json} {d : Disk}

omit [Python] in
theorem steady_requireFile {id : String} :
    Prog.Returns Steady (Pages.requireFile id) fun _ => True := by
  refine Prog.returns_bind (returns_ask fun _ _ => rfl) fun b _ => ?_
  split
  · exact Prog.returns_pure trivial
  · exact Prog.returns_throw

theorem steady_load {id : String} :
    Prog.Returns Steady (Pages.loadUnlocked id) fun _ => True := by
  refine Prog.returns_bind returns_checkId fun _ _ => Prog.returns_bind steady_requireFile ?_
  refine fun _ _ => Prog.returns_bind (returns_ask fun _ _ => rfl) fun content _ => ?_
  split
  · exact Prog.returns_throw
  · exact Prog.returns_throw
  · exact Prog.returns_throw
  · refine Prog.returns_bind (Prog.returns_lift fun _ _ => trivial) fun page _ => ?_
    refine Prog.returns_bind (returns_ask fun _ _ => rfl) fun b _ => ?_
    split
    · exact Prog.returns_pure trivial
    · exact Prog.returns_pure trivial

theorem gives_load :
    Gives (store (Pages.loadUnlocked p)) w ((w.disk.loads p).mapError .page) w := by
  have h := gives_store (w := w) (@steady_load _ p)
  rw [calm_load] at h
  exact h

theorem loads_of_file {v : Json} (hid : pageIdRe p = true)
    (hc : d.content (.page p) = some (.ok v)) :
    d.loads p = (validatePage v (some p)).map (·.maskedBy (marked d p)) := by
  unfold Disk.loads
  rw [validatePageId_of_re hid, hc]
  rfl

/-- A page without a file is missing. -/
theorem Files.missing (h : Files Grant.Named p none d) (hid : pageIdRe p = true) :
    d.loads p = .error (.notFound p) := by
  unfold Disk.loads
  rw [validatePageId_of_re hid, show d.content (.page p) = none from h]
  rfl

/-- What is on file is loaded, with its policy. -/
theorem Files.loads {policy : Json} (h : Files Grant.Named p (some policy) d) :
    ∃ page, d.loads p = .ok page ∧ page.id = p ∧ policyOf page = policy := by
  obtain ⟨q, hc, hchecked, rfl, hnamed, rfl⟩ := h
  have hread : validatePage q.toJson (some q.id) = .ok q.reread :=
    (validatePage_toJson hchecked (by rintro r ⟨⟩; rfl)).mpr ⟨hnamed, rfl⟩
  have hloads := loads_of_file q.id_re hc
  rw [hread] at hloads
  refine ⟨q.reread.maskedBy (marked d q.id), hloads, ?_, ?_⟩
  · unfold Page.maskedBy
    split <;> rfl
  · unfold Page.maskedBy
    split <;> rfl

/-- A page is published: it has no marker, the other pages are as they were,
and what is true of all pages stays true. -/
structure Published (p : String) (w w' : World) : Prop where
  disk : w'.disk = w.disk
  pending : w'.pending = w.pending.filter (· ≠ p)
  tracked : ∀ q, Tracked Grant.Named q w'

omit [Python] in
theorem filter_marked (w : World) (p : String) :
    (w.marked p).pending.filter (· ≠ p) = w.pending.filter (· ≠ p) := by
  show (if p ∈ w.pending then w.pending else p :: w.pending).filter _ = _
  split
  · rfl
  · rw [List.filter_cons_of_neg (by simp)]

/-- An acknowledged request, between the marker and its end. -/
theorem published_of_request {e : Op} (hw : ∀ q, Tracked Grant.Named q w)
    (hf : Files Grant.Named p o w.disk) (he : For p e) (hdisk : (e.apply (w.marked p)).disk = w.disk)
    (hpending : (e.apply (w.marked p)).pending = (w.marked p).pending)
    (hp : (e.apply (w.marked p)).policies.find? p = o.map (p, ·)) :
    Published p w ((e.apply (w.marked p)).cleared p) where
  disk := hdisk
  pending := by
    show (e.apply (w.marked p)).pending.filter _ = _
    rw [hpending]
    exact filter_marked w p
  tracked q := by
    by_cases hq : q = p
    · subst hq
      refine ⟨fun h => absurd h (not_mem_cleared _ q), ⟨o, ?_⟩, fun _ => ?_⟩
      · exact hdisk ▸ hf
      · exact agrees_of_files (w := (e.apply (w.marked q)).cleared q) (hdisk ▸ hf) hp
    · have hmark := other_apply (Ne.symm hq) (e := .openMarker p) rfl w
      have hrequest := other_apply (Ne.symm hq) he (w.marked p)
      have hclear := other_apply (Ne.symm hq) (e := .unlinkMarker p) rfl (e.apply (w.marked p))
      exact (((hw q).same hmark).same hrequest).same hclear

theorem gives_retry (hc : cfg.configured = true) (hid : pageIdRe p = true)
    (hw : ∀ q, Tracked Grant.Named q w) :
    ∃ w', Gives (retryPolicy cfg p) w (.ok ()) w' ∧ Published p w w' := by
  obtain ⟨o, ho⟩ := (hw p).filed
  unfold retryPolicy
  cases o with
  | none =>
      refine ⟨_, gives_seq (gives_attempt gives_load) ?_,
        published_of_request (e := .remove p) hw ho rfl rfl rfl ?_⟩
      · rw [ho.missing hid]
        exact gives_deletePolicy hc hid
      · show ((w.marked p).policies.deleteWhere fun r => r.1 = p).find? p = none
        rw [Table.find?_deleteWhere, Option.filter_eq_none_iff]
        intro r hr
        simpa using (Table.find?_eq_some.mp hr).2
  | some policy =>
      obtain ⟨page, hpage, rfl, rfl⟩ := ho.loads
      refine ⟨_, gives_seq (gives_attempt gives_load) ?_,
        published_of_request (e := .put page.id (policyOf page)) hw ho rfl rfl rfl ?_⟩
      · rw [hpage]
        exact gives_publish hc page
      · show (Table.insertOrReplace _ _).find? page.id = _
        rw [Table.find?_insertOrReplace, if_pos rfl]
        rfl

end Page

/-! ## The pass -/

section Pass

variable [Python] {cfg : Config} {w : World}

theorem gives_retryPolicies (hc : cfg.configured = true) (ids : List String)
    (hids : ∀ p ∈ ids, pageIdRe p = true) (hw : ∀ q, Tracked Grant.Named q w) :
    ∃ w', Gives (retryPolicies cfg ids) w (.ok ()) w' ∧ w'.disk = w.disk ∧
      w'.pending = w.pending.filter (· ∉ ids) ∧ ∀ q, Tracked Grant.Named q w' := by
  induction ids generalizing w with
  | nil => exact ⟨w, gives_pure (), rfl, by simp, hw⟩
  | cons p ids ih =>
      obtain ⟨w₁, hretry, hpub⟩ := gives_retry hc (hids p List.mem_cons_self) hw
      obtain ⟨w₂, hrest, hdisk, hpending, hw₂⟩ :=
        ih (fun q hq => hids q (List.mem_cons_of_mem _ hq)) hpub.tracked
      refine ⟨w₂, gives_seq hretry hrest, hdisk.trans hpub.disk, ?_, hw₂⟩
      rw [hpending, hpub.pending, List.filter_filter]
      refine List.filter_congr fun q _ => ?_
      simp [Bool.and_comm]

theorem trait_named : Trait NamesResource Grant.Named :=
  ⟨Pages.namesResource_iff, namesResource_toJson, id⟩

end Pass

end Admin

end AccessPages
