import AccessPages.Connectors.Identity
/-!
# Connectors — passes, one after another

A pass may be cut off before any of its questions, so between its two
writes too, and the list of pages may be any other each time: pages come,
go, come back and are unreadable for a while. The theorems are about every
sequence of such passes on files that were not there.
-/

namespace AccessPages

namespace Connectors

variable {p q : String} {u v : Int} {r h : List (String × Json)} {w w' : World}

/-! ## What the files say -/

/-- The files are what passes wrote: `r` in the registry, `h` in the history. -/
structure Sound (w : World) (r h : List (String × Json)) : Prop where
  registry : readPageConnectorRegistry w.registry = .ok r
  history : readPageConnectorHistory w.history = .ok h
  registered : Registered r
  remembered : Entries h
  exclusive : Exclusive (h ++ r)

/-- Every pair is still there. -/
def Keeps (r h r' h' : List (String × Json)) : Prop :=
  ∀ p u, Owns (h ++ r) p u → Owns (h' ++ r') p u

theorem readHistory_written (hh : Entries h) :
    readPageConnectorHistory (some (.obj h)) = .ok h := by
  unfold readPageConnectorHistory
  refine congrArg Except.ok ?_
  induction h with
  | nil => rfl
  | cons f h ih =>
      obtain ⟨u, hu⟩ := hh f List.mem_cons_self
      obtain ⟨p, entry⟩ := f
      have hrest := ih fun g hg => hh g (List.mem_cons_of_mem _ hg)
      cases hu <;> exact congrArg _ hrest

theorem sound_empty {pages : Except Exc (List String)} : Sound ⟨none, none, pages⟩ [] [] where
  registry := rfl
  history := rfl
  registered := fun _ hf => absurd hf List.not_mem_nil
  remembered := fun _ hf => absurd hf List.not_mem_nil
  exclusive := fun _ _ _ _ hu => absurd hu not_owns_nil

/-! ## One pass -/

section Rules

variable {α β : Type} {I : World → Prop} {Q : Except Exc β → World → Prop}

theorem wp_ask {e : Op} {f : e.Res → ConnectorM β} (hw : I w)
    (hf : Prog.Wp Op.step I (f (e.step w).1).run Q (e.step w).2) :
    Prog.Wp Op.step I (ask e >>= f).run Q w := ⟨hw, hf⟩

theorem wp_ok {x : Except Exc α} {a : α} {f : α → ConnectorM β} (hx : x = .ok a)
    (hf : Prog.Wp Op.step I (f a).run Q w) :
    Prog.Wp Op.step I ((liftM x : ConnectorM α) >>= f).run Q w := by
  subst hx
  exact hf

theorem wp_error {x : Except Exc α} {e : Exc} {f : α → ConnectorM β} (hx : x = .error e)
    (hw : I w) (hQ : Q (.error e) w) :
    Prog.Wp Op.step I ((liftM x : ConnectorM α) >>= f).run Q w := by
  subst hx
  exact ⟨hw, hQ⟩

end Rules

/-- The pass finds no identity for a page of its list. -/
def RunsOut (w : World) (r h : List (String × Json)) : Prop :=
  ∃ ids, w.pages = .ok ids ∧ ids.foldlM (publish r h) [] = .error .exhausted

/-- Where a pass may stop: the files are sound, no pair is lost, and nothing
is written when the identities run out. -/
structure Within (w : World) (r h : List (String × Json)) (w' : World) : Prop where
  sound : ∃ r' h', Sound w' r' h' ∧ Keeps r h r' h'
  untouched : RunsOut w r h → w' = w

/-- What a finished pass returns. -/
def Outcome (w : World) (r h : List (String × Json)) (x : Except Exc (List (String × Json)))
    (w' : World) : Prop :=
  match w.pages with
  | .error e => x = .error e
  | .ok ids =>
      (RunsOut w r h ∧ x = .error .exhausted) ∨
        ¬ RunsOut w r h ∧ ∃ e h', x = .ok e ∧ Sound w' e h' ∧ ∀ p, Has e p ↔ p ∈ ids

theorem outcome_of_pages {ids : List String} {x : Except Exc (List (String × Json))}
    (hpages : w.pages = .ok ids) :
    Outcome w r h x w' ↔ (RunsOut w r h ∧ x = .error .exhausted) ∨
      ¬ RunsOut w r h ∧ ∃ e h', x = .ok e ∧ Sound w' e h' ∧ ∀ p, Has e p ↔ p ∈ ids := by
  unfold Outcome
  rw [hpages]

/-- **One pass.** Wherever it stops it is within what a pass may do; and it
publishes its list, or has found no identity left. -/
theorem wp_reconcile (hs : Sound w r h) :
    Prog.Wp Op.step (Within w r h) reconcilePageConnectors.run (Outcome w r h) w := by
  have hw : Within w r h w := ⟨⟨r, h, hs, fun _ _ => id⟩, fun _ => rfl⟩
  refine wp_ask hw (wp_ok hs.registry (wp_ask hw (wp_ok hs.history (wp_ask hw ?_))))
  cases hpages : w.pages with
  | error e => exact wp_error hpages hw (by unfold Outcome; rw [hpages])
  | ok ids =>
      refine wp_ok hpages ?_
      have hstart : Exclusive (h ++ r ++ []) := by
        rw [List.append_nil]
        exact hs.exclusive
      rcases foldlM_publish hs.registered hs.remembered (e := [])
          (fun f hf => absurd hf List.not_mem_nil) hstart with
        ⟨e, hfold, he, hex, hhas⟩ | ⟨hfold, e, p, hp, he, hex, hhas, hexhausted⟩
      · have hnot : ¬ RunsOut w r h := by
          rintro ⟨ids', hpages', hfold'⟩
          obtain rfl : ids = ids' := Except.ok.inj (hpages.symm.trans hpages')
          rw [hfold] at hfold'
          cases hfold'
        obtain ⟨h', hremember, hh', howns⟩ := foldlM_remember (e := e) hs.registered.entries
          hs.remembered hs.exclusive
        have hlisted : ∀ p, Has e p ↔ p ∈ ids := fun p => by
          rw [hhas]
          exact or_iff_left fun h => h.elim fun _ hmem => absurd hmem List.not_mem_nil
        have hkept : ∀ p u, Owns h' p u → Owns (h ++ r) p u := fun p u hp =>
          owns_append.mpr (((howns p u).mp hp).imp id And.left)
        -- between the writes the history has more, the registry is as it was
        have hsound : Sound { w with history := some (.obj h') } r h' :=
          ⟨hs.registry, readHistory_written hh', hs.registered, hh', hs.exclusive.mono fun p u hp =>
            (owns_append.mp hp).elim (hkept p u) fun hp => owns_append.mpr (Or.inr hp)⟩
        have hkeeps : Keeps r h r h' := fun p u hp => owns_append.mpr
          ((owns_append.mp hp).imp (fun hp => (howns p u).mpr (Or.inl hp)) id)
        have hsound' : Sound { w with
            history := some (.obj h')
            registry := some (.obj [("version", .int 1), ("pages", .obj e)]) } e h' :=
          ⟨rfl, readHistory_written hh', he, hh', hex.mono fun p u hp =>
            owns_append.mpr ((owns_append.mp hp).imp (hkept p u) id)⟩
        have hkeeps' : Keeps r h e h' := by
          intro p u hp
          rcases owns_append.mp hp with hold | hold
          · exact owns_append.mpr (Or.inl ((howns p u).mpr (Or.inl hold)))
          · by_cases hlist : Has e p
            · obtain ⟨v, hv⟩ := he.entries.owns_of_has hlist
              have hsame : u = v := (hex p p u v (owns_append.mpr (Or.inl hp))
                (owns_append.mpr (Or.inr hv))).mp rfl
              exact owns_append.mpr (Or.inr (hsame ▸ hv))
            · exact owns_append.mpr (Or.inl ((howns p u).mpr (Or.inr ⟨hold, hlist⟩)))
        refine wp_ok hfold (wp_ok hremember (wp_ask hw ?_))
        have hleft : Within w r h { w with history := some (.obj h') } :=
          ⟨⟨r, h', hsound, hkeeps⟩, fun hrunsOut => absurd hrunsOut hnot⟩
        have hend : Within w r h { w with
            history := some (.obj h')
            registry := some (.obj [("version", .int 1), ("pages", .obj e)]) } :=
          ⟨⟨e, h', hsound', hkeeps'⟩, fun hrunsOut => absurd hrunsOut hnot⟩
        exact wp_ask hleft (wp_ask hend ⟨hend, (outcome_of_pages hpages).mpr
          (Or.inr ⟨hnot, e, h', rfl, hsound', hlisted⟩)⟩)
      · exact wp_error hfold hw ((outcome_of_pages hpages).mpr
          (Or.inl ⟨⟨ids, hpages, hfold⟩, rfl⟩))

/-! ## When the identities run out -/

/-- The pages the files know. -/
def known (d : List (String × Json)) : Finset String := (d.map Prod.fst).toFinset

theorem mem_known {d : List (String × Json)} : p ∈ known d ↔ Has d p := by
  unfold known Has
  rw [List.mem_toFinset, List.mem_map]
  constructor
  · rintro ⟨f, hf, rfl⟩
    exact ⟨f.2, hf⟩
  · rintro ⟨entry, hmem⟩
    exact ⟨(p, entry), hmem, rfl⟩

theorem card_uids : (Finset.Icc uidMin uidMax).card = 1000 := Int.card_Icc uidMin uidMax

/-- **There is an identity for each page, or there are too many pages**: a
pass runs out exactly when the pages it knows and lists are more than a
thousand. -/
theorem runsOut_iff (hs : Sound w r h) {ids : List String} (hpages : w.pages = .ok ids) :
    RunsOut w r h ↔ 1000 < (known (h ++ r) ∪ ids.toFinset).card := by
  have hstart : Exclusive (h ++ r ++ []) := by
    rw [List.append_nil]
    exact hs.exclusive
  have hnil : ∀ {p}, ¬ Has [] p := fun h => h.elim fun _ hmem => absurd hmem List.not_mem_nil
  have hmem : ∀ {e p}, (∀ q, Has e q → q ∈ ids) → Has (h ++ r ++ e) p →
      p ∈ known (h ++ r) ∪ ids.toFinset := by
    intro e p he hp
    rw [Finset.mem_union, mem_known, List.mem_toFinset]
    exact (has_append.mp hp).imp id (he p)
  rcases @foldlM_publish [] _ _ hs.registered hs.remembered ids
      (fun f hf => absurd hf List.not_mem_nil) hstart with
    ⟨e, hfold, he, hex, hhas⟩ | ⟨hfold, e, p, hp, he, hex, hhas, hexhausted⟩
  · have hnot : ¬ RunsOut w r h := by
      rintro ⟨ids', hpages', hfold'⟩
      obtain rfl : ids = ids' := Except.ok.inj (hpages.symm.trans hpages')
      rw [hfold] at hfold'
      cases hfold'
    refine iff_of_false hnot (Nat.not_lt.mpr ?_)
    -- every page has an identity of its own
    have hentries : Entries (h ++ r ++ e) :=
      (hs.remembered.append hs.registered.entries).append he.entries
    have howns : ∀ p ∈ known (h ++ r) ∪ ids.toFinset, ∃ u, Owns (h ++ r ++ e) p u := by
      intro p hp
      rw [Finset.mem_union, mem_known, List.mem_toFinset] at hp
      exact hentries.owns_of_has (has_append.mpr (hp.imp id fun hp => (hhas p).mpr (Or.inl hp)))
    choose! uid huid using howns
    rw [← card_uids]
    refine Finset.card_le_card_of_injOn uid (fun p hp => ?_) fun p hp q hq hpq => ?_
    · exact Finset.mem_coe.mpr (Finset.mem_Icc.mpr (hentries.inRange (huid p hp)))
    · exact (hex _ _ _ _ (huid p hp) (huid q hq)).mpr hpq
  · refine iff_of_true ⟨ids, hpages, hfold⟩ ?_
    have hids : ∀ q, Has e q → q ∈ ids := fun q hq => (hhas q hq).resolve_right hnil
    have hp' : p ∈ known (h ++ r) ∪ ids.toFinset :=
      Finset.mem_union_right _ (List.mem_toFinset.mpr hp)
    -- every identity has a page of its own, which is not `p`
    have howner : ∀ u ∈ Finset.Icc uidMin uidMax, ∃ q, Owns (h ++ r ++ e) q u := fun u hu =>
      hexhausted.taken u (Finset.mem_Icc.mp hu)
    choose! owner hown using howner
    have hcard : (Finset.Icc uidMin uidMax).card ≤
        ((known (h ++ r) ∪ ids.toFinset).erase p).card := by
      refine Finset.card_le_card_of_injOn owner (fun u hu => ?_) fun u hu v hv huv => ?_
      · obtain ⟨entry, hentry, -⟩ := hown u hu
        refine Finset.mem_coe.mpr (Finset.mem_erase.mpr ⟨fun hq => ?_, hmem hids ⟨entry, hentry⟩⟩)
        exact hexhausted.none u (hq ▸ hown u hu)
      · exact (hex _ _ _ _ (hown u hu) (hown v hv)).mp huv
    rw [card_uids, Finset.card_erase_of_mem hp'] at hcard
    omega

/-! ## Runs -/

/-- A pass over any list of pages, finished or cut off anywhere. -/
def Pass (w w' : World) : Prop :=
  ∃ pages, Prog.Stops Op.step reconcilePageConnectors.run { w with pages } w'

/-- Any number of them. -/
abbrev Passes : World → World → Prop := Relation.ReflTransGen Pass

theorem Sound.list (hs : Sound w r h) (pages : Except Exc (List String)) :
    Sound { w with pages } r h :=
  ⟨hs.registry, hs.history, hs.registered, hs.remembered, hs.exclusive⟩

theorem Sound.pass (hs : Sound w r h) (hp : Pass w w') :
    ∃ r' h', Sound w' r' h' ∧ Keeps r h r' h' := by
  obtain ⟨pages, hstops⟩ := hp
  exact ((Prog.wp_iff.mp (wp_reconcile (hs.list pages))).1 w' hstops).sound

/-- **What is known stays known**, through any number of passes. -/
theorem Sound.passes (hs : Sound w r h) (hp : Passes w w') :
    ∃ r' h', Sound w' r' h' ∧ Keeps r h r' h' := by
  induction hp with
  | refl => exact ⟨r, h, hs, fun _ _ => id⟩
  | tail _ hpass ih =>
      obtain ⟨r₁, h₁, hs₁, hkeeps₁⟩ := ih
      obtain ⟨r₂, h₂, hs₂, hkeeps₂⟩ := hs₁.pass hpass
      exact ⟨r₂, h₂, hs₂, fun p u hp => hkeeps₂ p u (hkeeps₁ p u hp)⟩

/-! ## What is published -/

/-- What the endpoint of a page is started with. -/
structure Identity where
  runtimeUid : Int
  targetIp : String
  deriving DecidableEq, Repr

/-- The user the endpoint runs as. -/
def Identity.endpointUid (i : Identity) : Int := i.runtimeUid + endpointUidOffset

def identity? : Json → Option Identity
  | .obj entry => do
      let uid ← (Json.get? entry "runtime_uid").bind int?
      let .str targetIp ← Json.get? entry "target_ip" | none
      return ⟨uid, targetIp⟩
  | _ => none

/-- The registry has the page, with that identity. -/
def Publishes (w : World) (p : String) (i : Identity) : Prop :=
  ∃ d entry, readPageConnectorRegistry w.registry = .ok d ∧ (p, entry) ∈ d ∧
    identity? entry = some i

/-- The pages the two files know. -/
def World.known (w : World) : Finset String :=
  match readPageConnectorRegistry w.registry, readPageConnectorHistory w.history with
  | .ok r, .ok h => Connectors.known (h ++ r)
  | _, _ => ∅

theorem Sound.known (hs : Sound w r h) : w.known = Connectors.known (h ++ r) := by
  unfold World.known
  rw [hs.registry, hs.history]

theorem Sound.of_publishes (hs : Sound w r h) {i : Identity} (hp : Publishes w p i) :
    Owns r p i.runtimeUid ∧ InRange i.runtimeUid ∧
      pageConnectorTargetIp i.runtimeUid = .ok i.targetIp := by
  obtain ⟨d, entry, hread, hmem, hi⟩ := hp
  obtain rfl : r = d := Except.ok.inj (hs.registry.symm.trans hread)
  obtain ⟨u, targetIp, hu, hip, hentry⟩ := hs.registered _ hmem
  dsimp only at hentry
  subst hentry
  obtain rfl : Identity.mk u targetIp = i := Option.some.inj hi
  exact ⟨⟨_, hmem, rfl⟩, hu, hip⟩

theorem Sound.publishes_iff (hs : Sound w r h) : (∃ i, Publishes w p i) ↔ Has r p := by
  constructor
  · rintro ⟨i, d, entry, hread, hmem, -⟩
    obtain rfl : r = d := Except.ok.inj (hs.registry.symm.trans hread)
    exact ⟨entry, hmem⟩
  · rintro ⟨entry, hmem⟩
    obtain ⟨u, targetIp, -, -, hentry⟩ := hs.registered _ hmem
    dsimp only at hentry
    subst hentry
    exact ⟨⟨u, targetIp⟩, r, _, hs.registry, hmem, rfl⟩

/-- **A runtime identity is exclusive and permanent.** Through any passes,
finished or cut off, over any lists of pages: what two pages are published
with at two moments is never the same user or address, and what one page
is published with is always the same; every address is one of
127.77.0.0/16; and a pass publishes exactly its list, unless the pages
known and listed are more than the identities: then it raises and writes
nothing. -/
theorem page_identity_exclusive (pages : Except Exc (List String)) {w₁ w₂ : World}
    (h₁ : Passes ⟨none, none, pages⟩ w₁) (h₂ : Passes w₁ w₂) :
    (∀ p q i j, Publishes w₁ p i → Publishes w₂ q j →
      (p = q ↔ i.runtimeUid = j.runtimeUid) ∧ (p = q ↔ i.endpointUid = j.endpointUid) ∧
        (p = q ↔ i.targetIp = j.targetIp)) ∧
    (∀ p i, Publishes w₁ p i → ∃ a b, octets i.targetIp = some [127, 77, a, b]) ∧
    ∀ ids, let pass := Prog.run Op.step reconcilePageConnectors.run { w₁ with pages := .ok ids }
      if 1000 < (w₁.known ∪ ids.toFinset).card then
        pass.1 = .error .exhausted ∧ ∀ w', Prog.Stops Op.step reconcilePageConnectors.run
          { w₁ with pages := .ok ids } w' → w' = { w₁ with pages := .ok ids }
      else (∃ e, pass.1 = .ok e) ∧ ∀ p, (∃ i, Publishes pass.2 p i) ↔ p ∈ ids := by
  obtain ⟨r₁, h₁, hs₁, -⟩ := sound_empty.passes h₁
  obtain ⟨r₂, h₂, hs₂, hkeeps⟩ := hs₁.passes h₂
  refine ⟨fun p q i j hp hq => ?_, fun p i hp => ?_, fun ids => ?_⟩
  · obtain ⟨hown, hi, hip⟩ := hs₁.of_publishes hp
    obtain ⟨hown', hj, hjp⟩ := hs₂.of_publishes hq
    have huid : p = q ↔ i.runtimeUid = j.runtimeUid := hs₂.exclusive _ _ _ _
      (hkeeps _ _ (owns_append.mpr (Or.inr hown))) (owns_append.mpr (Or.inr hown'))
    refine ⟨huid, huid.trans ?_, huid.trans ⟨fun hsame => ?_, fun hsame => ?_⟩⟩
    · unfold Identity.endpointUid
      omega
    · rw [hsame] at hip
      exact Except.ok.inj (hip.symm.trans hjp)
    · exact targetIp_injective hi hj hip (hsame ▸ hjp)
  · obtain ⟨-, hi, hip⟩ := hs₁.of_publishes hp
    exact ⟨_, _, octets_targetIp hi hip⟩
  · have hlist := hs₁.list (.ok ids)
    have hpass := Prog.wp_iff.mp (wp_reconcile hlist)
    have hout := (outcome_of_pages rfl).mp hpass.2
    have hcount := @runsOut_iff _ _ _ hlist ids rfl
    dsimp only
    rw [hs₁.known]
    split
    · rename_i hmany
      have hruns := hcount.mpr hmany
      exact ⟨(hout.resolve_right fun h => h.1 hruns).2, fun w' hw' =>
        (hpass.1 w' hw').untouched hruns⟩
    · rename_i hfew
      have hruns := fun h => hfew (hcount.mp h)
      obtain ⟨-, e, h', hok, hs', hhas⟩ := hout.resolve_left fun h => hruns h.1
      exact ⟨⟨e, hok⟩, fun p => hs'.publishes_iff.trans (hhas p)⟩

/-- The door and the gate are published. -/
def doorAndGate : World :=
  (Prog.run Op.step reconcilePageConnectors.run ⟨none, none, .ok ["door", "gate"]⟩).2

/-- Then the gate alone. -/
def gateAlone : World :=
  (Prog.run Op.step reconcilePageConnectors.run { doorAndGate with pages := .ok ["gate"] }).2

/-- The identities in a registry. -/
def published (w : World) : List (String × Option Identity) :=
  match readPageConnectorRegistry w.registry with
  | .ok d => d.map fun f => (f.1, identity? f.2)
  | .error _ => []

-- the gate keeps its identity when the door goes
example : published doorAndGate =
      [("door", some ⟨22000, "127.77.0.1"⟩), ("gate", some ⟨22001, "127.77.0.2"⟩)] ∧
    published gateAlone = [("gate", some ⟨22001, "127.77.0.2"⟩)] := by decide +kernel

theorem page_identity_exclusive_gate :
    Passes ⟨none, none, .ok []⟩ doorAndGate ∧ Passes doorAndGate gateAlone ∧
      ∀ p q i j, Publishes doorAndGate p i → Publishes gateAlone q j →
        (p = q ↔ i.runtimeUid = j.runtimeUid) ∧ (p = q ↔ i.endpointUid = j.endpointUid) ∧
          (p = q ↔ i.targetIp = j.targetIp) := by
  have hboth : Passes ⟨none, none, .ok []⟩ doorAndGate := by
    refine Relation.ReflTransGen.single ⟨.ok ["door", "gate"], ?_⟩
    unfold doorAndGate
    exact Prog.stops_run
  have hone : Passes doorAndGate gateAlone := by
    refine Relation.ReflTransGen.single ⟨.ok ["gate"], ?_⟩
    unfold gateAlone
    exact Prog.stops_run
  exact ⟨hboth, hone, (page_identity_exclusive (.ok []) hboth hone).1⟩

end Connectors

end AccessPages
