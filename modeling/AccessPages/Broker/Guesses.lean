import AccessPages.Broker.Unseen
import AccessPages.Common.Server
import AccessPages.RateLimit.MinimumInterval
import AccessPages.RateLimit.SlidingWindow
/-!
# Broker — guesses that fail

The guest socket serves one request after another, and keeps the session
database and four limiters between them. A request that does not come
from a guest, because its secret is not that of the grant, the grant is
gone or over, or the session is none of its, only reads. It charges no
limiter, so nobody is locked out by somebody else's guesses.
-/

namespace AccessPages

namespace Broker

open Pages (Page Grant)
open Prog (Asks)
open RateLimit (SlidingWindow MinimumInterval)

/-! ## The guest socket over time -/

/-- What the broker keeps between requests: the session database and the
limiters of this process. -/
structure Kept where
  db : Sessions.Database
  sessionLimiter : SlidingWindow String ℚ
  actionLimiter : SlidingWindow String ℚ
  cameraLimiter : SlidingWindow String ℚ
  refreshLimiter : MinimumInterval String

/-- A process that starts at `now`. -/
def Kept.new (db : Sessions.Database) (now : ℚ) : Kept where
  db := db
  sessionLimiter := .new 12 60 (some 1024) now
  actionLimiter := .new 12 60 none now
  cameraLimiter := .new 10 60 none now
  refreshLimiter := .new 10000

/-- What a question meets: the world outside, the sessions the
administrator's cleanup deleted before it, and the monotonic clock. -/
structure Tick where
  outside : World
  deleted : List (String × String)
  monotonic : ℚ

section Listener

variable (sha256 : String → String)

/-- The session database as the question finds it. -/
def Tick.database (t : Tick) (db : Sessions.Database) : Sessions.Database :=
  t.deleted.foldl (fun db d => (Sessions.Txn.revoke d.1 d.2).apply sha256 db) db

/-- One question, and what is kept after it. -/
def Op.perform (t : Tick) (e : Op) (kept : Kept) : e.Ans × Kept :=
  let w : World := { t.outside with db := t.database sha256 kept.db }
  let kept := { kept with db := w.db }
  match w.fault, e with
  | some x, _ => (.error x, kept)
  | none, .allowSession key =>
      let out := kept.sessionLimiter.allow key t.monotonic
      (.ok out.1, { kept with sessionLimiter := out.2 })
  | none, .allowAction key =>
      let out := kept.actionLimiter.allow key t.monotonic
      (.ok out.1, { kept with actionLimiter := out.2 })
  | none, .allowCamera key =>
      let out := kept.cameraLimiter.allow key t.monotonic
      (.ok out.1, { kept with cameraLimiter := out.2 })
  | none, .checkRefresh key interval =>
      match kept.refreshLimiter.check key interval t.monotonic with
      | (some answer, limiter) => (.ok answer, { kept with refreshLimiter := limiter })
      | (none, limiter) =>
          (.error (.python .valueError), { kept with refreshLimiter := limiter })
  | none, e => (e.answer sha256 w, { kept with db := (e.step sha256 w).2.db })

/-- The guest socket. -/
def listener [Python] : Server GuestRequest Tick Op Op.Ans Answer Kept where
  serve := guestPost sha256
  perform := Op.perform sha256
  reply _ _ kept := kept

end Listener

/-! ## Guesses -/

section Guess

variable [Python] (sha256 : String → String)

/-- There is no such grant with the hash that lasts beyond `now`. -/
def Tick.Closed (pageId grantId hash : String) (now : Instant) (t : Tick) : Prop :=
  now ≤ t.outside.clock ∧ ∀ page, t.outside.grants pageId = .ok page →
    ∀ grant, page.accessGrants.find? (·.id = grantId) = some grant →
      grant.tokenHash ≠ hash ∨ ∀ expiry, grantExpiry grant = .ok expiry → expiry * second ≤ now

/-- The session is not live, or is one of another grant. -/
def Tick.Foreign (db : Sessions.Database) (pageId grantId session : String) (t : Tick) : Prop :=
  ∀ bound stored hash,
    Sessions.guestSessionInfo sha256 db t.outside.clock session pageId =
      some (bound, stored, hash) → bound ≠ grantId

/-- The hash the session was opened with. -/
def openedWith (db : Sessions.Database) (session : String) : String :=
  ((db.guestSessionGrants.find? (sha256 session)).map (·.grantHash)).getD ""

/-- No session of the grant, or none of a grant that is still there. -/
def NoSession (db : Sessions.Database) (pageId grantId session : String) (now : Instant)
    (ts : List Tick) : Prop :=
  (∀ t ∈ ts, t.Foreign sha256 db pageId grantId session) ∨
    ∀ t ∈ ts, t.Closed pageId grantId (openedWith sha256 db session) now

/-- **A call without the credentials for it.** To ask for the status of a
session takes none. -/
def Scoped.Guess (db : Sessions.Database) (pageId : String) (now : Instant) (ts : List Tick) :
    Scoped → Prop
  | .bootstrap grantId secret => ∀ t ∈ ts, t.Closed pageId grantId (sha256 secret) now
  | .bootstrapResume .. => True
  | .sessionStatus .. => True
  | .verificationChallenge grantId session _ => NoSession sha256 db pageId grantId session now ts
  | .verificationVerify grantId session _ => NoSession sha256 db pageId grantId session now ts
  | .resourceState grantId session _ => NoSession sha256 db pageId grantId session now ts
  | .pageView grantId session => NoSession sha256 db pageId grantId session now ts
  | .camera grantId session _ => NoSession sha256 db pageId grantId session now ts
  | .action grantId session .. => NoSession sha256 db pageId grantId session now ts

/-- The page is claimed, or none is. -/
def Claims (headers : Headers) (pageId : String) : Prop :=
  headers.getAll "X-Access-Pages-Page-ID" = [] ∨
    ∃ claimed, headers.getAll "X-Access-Pages-Page-ID" = [claimed] ∧
      (claimed = "" ∨ claimed = pageId)

/-- **A guess**, made when `kept` is kept: whatever it calls on a page it may
be for, it has not the credentials; and no sessions are deleted meanwhile. -/
structure Guess (kept : Kept) (v : GuestRequest × List Tick) : Prop where
  alone : ∀ t ∈ v.2, t.deleted = []
  refused : ∀ pageId, Claims v.1.headers pageId → ∀ route call,
    Route.ofPath? v.1.path = some route → v.1.body.bind route.parse = some call →
      ∃ now, call.Guess sha256 kept.db pageId now v.2

end Guess

/-! ## Questions that only read -/

section Quiet

variable {sha256 : String → String} {kept : Kept} {ts : List Tick} {α β : Type}

theorem perform_reads {t : Tick} (ht : t.deleted = []) {e : Op} (he : e.Reads) :
    e.perform sha256 t kept =
      (e.answer sha256 { t.outside with db := kept.db }, kept) := by
  have hdb : t.database sha256 kept.db = kept.db := by rw [Tick.database, ht, List.foldl_nil]
  dsimp only [Op.perform]
  rw [hdb]
  cases hfault : t.outside.fault with
  | some x => simp only [Op.answer, Op.step]
  | none =>
      cases e with
      | loadPolicy | loadGrants | time | sessionInfo | verifiedUntil | registry | actionRemaining =>
          simp only [Op.answer, Op.step, Op.txn, Option.map_none, Option.getD_none]
      | _ => cases he

/-- With these ticks the program only reads, leaves what is kept, and ends in
`Q`. -/
def Quiet (sha256 : String → String) (kept : Kept) (ts : List Tick) (p : Prog Op Op.Ans α)
    (Q : α → Prop) : Prop :=
  p.Holds (fun t : {t // t ∈ ts} => Op.perform sha256 t.1) (· = kept) (fun ev => ev.op.Reads)
    (fun a _ => Q a) kept

theorem quiet_ret {a : α} {Q : α → Prop} (h : Q a) : Quiet sha256 kept ts (.ret a) Q := ⟨rfl, h⟩

theorem Quiet.mono {p : Prog Op Op.Ans α} {Q Q' : α → Prop} (hp : Quiet sha256 kept ts p Q)
    (hQ : ∀ a, Q a → Q' a) : Quiet sha256 kept ts p Q' :=
  Prog.holds_mono hp fun a _ _ h => hQ a h

theorem quiet_bind {p : Prog Op Op.Ans α} {f : α → Prog Op Op.Ans β} {Q : β → Prop}
    (hp : Quiet sha256 kept ts p fun a => Quiet sha256 kept ts (f a) Q) :
    Quiet sha256 kept ts (p >>= f) Q := by
  refine Prog.holds_bind.mpr (Prog.holds_mono hp ?_)
  rintro a _ rfl h
  exact h

theorem quiet_except_bind {x : BrokerM α} {f : α → BrokerM β} {R : α → Prop}
    {Q : Except Exc β → Prop} (hx : Quiet sha256 kept ts x.run fun r => ∀ a, r = .ok a → R a)
    (hf : ∀ a, R a → Quiet sha256 kept ts (f a).run Q) (herr : ∀ e, Q (.error e)) :
    Quiet sha256 kept ts (x >>= f).run Q := by
  refine quiet_bind (p := x.run) (f := ExceptT.bindCont f) (hx.mono fun r hr => ?_)
  cases r with
  | ok a => exact hf a (hr a rfl)
  | error e => exact quiet_ret (herr e)

theorem quiet_ask (halone : ∀ t ∈ ts, t.deleted = []) {e : Op} (he : e.reads = true)
    {R : e.Res → Prop} (hR : ∀ t ∈ ts, R (e.result sha256 { t.outside with db := kept.db })) :
    Quiet sha256 kept ts (ask e).run fun r => ∀ a, r = .ok a → R a := by
  refine ⟨rfl, fun t => ?_⟩
  obtain ⟨t, ht⟩ := t
  dsimp only
  rw [perform_reads (halone t ht) he]
  refine ⟨he, rfl, fun a ha => ?_⟩
  obtain ⟨-, rfl⟩ := answer_eq_ok ha
  exact hR t ht

theorem quiet_of_reads (halone : ∀ t ∈ ts, t.deleted = []) {p : Prog Op Op.Ans α}
    (hp : Asks Op.Reads p) : Quiet sha256 kept ts p fun _ => True := by
  induction p with
  | ret a => exact quiet_ret trivial
  | op e k ih =>
      refine ⟨rfl, fun t => ?_⟩
      obtain ⟨t, ht⟩ := t
      dsimp only
      rw [perform_reads (halone t ht) hp.1]
      exact ⟨hp.1, ih _ (hp.2 _)⟩

theorem quiet_reading (halone : ∀ t ∈ ts, t.deleted = []) {x : BrokerM α}
    (hx : Asks Op.Reads x.run) : Quiet sha256 kept ts x.run fun r => ∀ a, r = .ok a → True :=
  (quiet_of_reads halone hx).mono fun _ _ _ _ => trivial

/-- Where nothing is found, the rest is not reached. -/
theorem quiet_none_bind {x : BrokerM (Option α)} {f : Option α → BrokerM β}
    (hx : Quiet sha256 kept ts x.run fun r => ∀ a, r = .ok a → a = none)
    (hf : Quiet sha256 kept ts (f none).run fun _ => True) :
    Quiet sha256 kept ts (x >>= f).run fun _ => True := by
  refine quiet_except_bind hx ?_ fun _ => trivial
  rintro _ rfl
  exact hf

theorem quiet_map {x : BrokerM α} {f : α → β} (hx : Quiet sha256 kept ts x.run fun _ => True) :
    Quiet sha256 kept ts (f <$> x).run fun _ => True :=
  quiet_except_bind (f := fun a => pure (f a)) (hx.mono fun _ _ _ _ => trivial)
    (fun _ _ => quiet_ret trivial) fun _ => trivial

theorem quiet_tryCatch {x : BrokerM α} {f : Exc → BrokerM α}
    (hx : Quiet sha256 kept ts x.run fun _ => True)
    (hf : ∀ e, Quiet sha256 kept ts (f e).run fun _ => True) :
    Quiet sha256 kept ts (tryCatch x f).run fun _ => True := by
  refine quiet_bind (hx.mono fun r _ => ?_)
  cases r with
  | ok a => exact quiet_ret trivial
  | error e => exact hf e

/-! ## What is read of somebody who is no guest -/

variable [Python] {pageId grantId session : String} {now : Instant}

/-- A grant that is closed to a hash is not current under it. -/
theorem quiet_currentGuestGrant {hash : String} (halone : ∀ t ∈ ts, t.deleted = [])
    (hclosed : ∀ t ∈ ts, t.Closed pageId grantId hash now) :
    Quiet sha256 kept ts (currentGuestGrant pageId grantId).run fun r => ∀ current,
      r = .ok current → ∀ grant expiry, current = some (grant, expiry) →
        grant.tokenHash ≠ hash := by
  refine quiet_except_bind (R := fun loaded => ∃ t ∈ ts, loaded = t.outside.grants pageId)
    (quiet_ask halone rfl fun t ht => ⟨t, ht, rfl⟩) ?_ nofun
  rintro loaded ⟨t, ht, hloaded⟩
  split
  · exact quiet_ret nofun
  · exact quiet_ret (by rintro _ ⟨⟩; exact nofun)
  rename_i page
  split
  · exact quiet_ret (by rintro _ ⟨⟩; exact nofun)
  rename_i grant hfind
  cases hexpiry : grantExpiry grant with
  | error e => exact quiet_ret nofun
  | ok expiry =>
      refine quiet_except_bind (x := time) (R := fun clock => ∃ t ∈ ts, clock = t.outside.clock)
        (quiet_ask halone rfl fun t ht => ⟨t, ht, rfl⟩) ?_ (fun _ _ h => by cases h)
      rintro clock ⟨t', ht', hclock⟩
      split
      · exact quiet_ret (by rintro _ ⟨⟩; exact nofun)
      rename_i hlive
      refine quiet_ret ?_
      rintro _ ⟨⟩ _ _ ⟨⟩
      rcases (hclosed t ht).2 page hloaded.symm grant hfind with hhash | hover
      · exact hhash
      · have hnow : now ≤ clock := (hclosed t' ht').1.trans (le_of_eq hclock.symm)
        exact absurd ((hover expiry hexpiry).trans hnow) hlive

omit [Python] in
/-- What is read of a session names the hash it was opened with. -/
theorem opened_of_info {db : Sessions.Database} {bound hash : String} {stored : Int}
    (h : Sessions.guestSessionInfo sha256 db now session pageId = some (bound, stored, hash)) :
    hash = openedWith sha256 db session := by
  unfold Sessions.guestSessionInfo at h
  split at h
  · cases h
  obtain ⟨s, -, h⟩ := Option.bind_eq_some_iff.mp h
  obtain ⟨g, hg, h⟩ := Option.bind_eq_some_iff.mp h
  split at h
  · cases h
    rw [openedWith, hg, Option.map_some, Option.getD_some]
  · cases h

/-- It has no session. -/
theorem quiet_guestSessionStatus (halone : ∀ t ∈ ts, t.deleted = [])
    (hno : NoSession sha256 kept.db pageId grantId session now ts) :
    Quiet sha256 kept ts (guestSessionStatus pageId grantId session).run fun r =>
      ∀ status, r = .ok status → status = none := by
  refine quiet_except_bind (R := fun info => ∃ t ∈ ts,
    info = Sessions.guestSessionInfo sha256 kept.db t.outside.clock session pageId)
    (quiet_ask halone rfl fun t ht => ⟨t, ht, rfl⟩) ?_ nofun
  rintro info ⟨t, ht, hinfo⟩
  split
  · exact quiet_ret (by rintro _ ⟨⟩; rfl)
  rename_i bound stored hash
  split
  · exact quiet_ret (by rintro _ ⟨⟩; rfl)
  rename_i hbound
  rcases hno with hforeign | hclosed
  · exact absurd (hforeign t ht bound stored hash hinfo.symm) hbound
  refine quiet_except_bind (quiet_currentGuestGrant halone hclosed) ?_ nofun
  intro current hcurrent
  split
  · exact quiet_ret (by rintro _ ⟨⟩; rfl)
  rename_i grant expiry
  split
  · exact quiet_ret (by rintro _ ⟨⟩; rfl)
  rename_i hsame
  have hhash : hash = openedWith sha256 kept.db session := opened_of_info hinfo.symm
  exact absurd (not_not.mp hsame ▸ hhash) (hcurrent grant expiry rfl)

theorem quiet_verifiedGuestContext (halone : ∀ t ∈ ts, t.deleted = [])
    (hno : NoSession sha256 kept.db pageId grantId session now ts) :
    Quiet sha256 kept ts (verifiedGuestContext pageId grantId session).run fun r =>
      ∀ context, r = .ok context → context = none := by
  refine quiet_except_bind (quiet_guestSessionStatus halone hno) ?_ nofun
  rintro _ rfl
  refine quiet_except_bind (quiet_reading halone reads_currentGuestGrant) (fun current _ => ?_)
    nofun
  exact quiet_ret (by rintro _ ⟨⟩; rfl)

theorem quiet_readySession (halone : ∀ t ∈ ts, t.deleted = [])
    (hno : NoSession sha256 kept.db pageId grantId session now ts) :
    Quiet sha256 kept ts (readySession pageId grantId session).run fun r =>
      ∀ status, r = .ok status → status = none := by
  refine quiet_except_bind (quiet_guestSessionStatus halone hno) ?_ nofun
  rintro _ rfl
  exact quiet_ret (by rintro _ ⟨⟩; rfl)

/-- The secret is not the grant's. -/
theorem quiet_exchangeGuestBootstrap {secret : String} (halone : ∀ t ∈ ts, t.deleted = [])
    (hclosed : ∀ t ∈ ts, t.Closed pageId grantId (sha256 secret) now) :
    Quiet sha256 kept ts (exchangeGuestBootstrap sha256 pageId grantId secret).run
      fun _ => True := by
  refine quiet_except_bind (quiet_currentGuestGrant halone hclosed) ?_ fun _ => trivial
  intro current hcurrent
  split
  · exact quiet_ret trivial
  rename_i grant expiry
  rw [if_pos (Or.inr (hcurrent grant expiry rfl).symm)]
  exact quiet_ret trivial

/-- A call without the credentials for it. -/
theorem quiet_run {call : Scoped} (halone : ∀ t ∈ ts, t.deleted = [])
    (hguess : call.Guess sha256 kept.db pageId now ts) :
    Quiet sha256 kept ts (call.run sha256 pageId).run fun _ => True := by
  cases call with
  | bootstrap => exact quiet_map (quiet_exchangeGuestBootstrap halone hguess)
  | bootstrapResume => exact quiet_map (quiet_of_reads halone reads_resumeGuestBootstrap)
  | sessionStatus => exact quiet_map (quiet_of_reads halone reads_guestSessionStatus)
  | verificationChallenge =>
      exact quiet_map (quiet_none_bind (quiet_verifiedGuestContext halone hguess)
        (quiet_ret trivial))
  | verificationVerify =>
      exact quiet_map (quiet_none_bind (quiet_verifiedGuestContext halone hguess)
        (quiet_ret trivial))
  | resourceState =>
      exact quiet_map (quiet_none_bind (quiet_readySession halone hguess) (quiet_ret trivial))
  | pageView =>
      exact quiet_map (quiet_none_bind (quiet_readySession halone hguess) (quiet_ret trivial))
  | camera =>
      exact quiet_map (quiet_none_bind (quiet_readySession halone hguess) (quiet_ret trivial))
  | action =>
      exact quiet_map (quiet_none_bind (quiet_guestSessionStatus halone hguess)
        (quiet_ret trivial))

theorem quiet_respond {route : Route} {call : Scoped} (halone : ∀ t ∈ ts, t.deleted = [])
    (hguess : call.Guess sha256 kept.db pageId now ts) :
    Quiet sha256 kept ts (route.respond sha256 pageId call).run fun _ => True := by
  refine quiet_tryCatch (quiet_except_bind ((quiet_run halone hguess).mono fun _ _ _ _ => trivial)
    (fun r _ => ?_) fun _ => trivial) fun e => ?_
  · split <;> exact quiet_ret trivial
  · split <;> exact quiet_ret trivial

omit [Python] in
/-- A page is bound only where it is claimed, or none is. -/
theorem quiet_boundPage {headers : Headers} (halone : ∀ t ∈ ts, t.deleted = []) :
    Quiet sha256 kept ts (boundPage sha256 headers).run fun r => ∀ bound, r = .ok bound →
      ∀ pageId, bound = .ok pageId → Claims headers pageId := by
  have hresolve : ∀ capability claimed, Quiet sha256 kept ts
      (boundPage.resolve sha256 capability claimed).run fun r => ∀ bound, r = .ok bound →
        ∀ pageId, bound = .ok pageId → claimed = "" ∨ claimed = pageId := by
    intro capability claimed
    refine quiet_except_bind (quiet_reading halone reads_guestPageIdentity) (fun identity _ => ?_)
      nofun
    split
    · exact quiet_ret (by rintro _ ⟨⟩; exact nofun)
    split
    · exact quiet_ret (by rintro _ ⟨⟩; exact nofun)
    · rename_i hsame
      push Not at hsame
      refine quiet_ret ?_
      rintro _ ⟨⟩ _ ⟨⟩
      exact or_iff_not_imp_left.mpr hsame
  unfold boundPage
  split
  · rename_i hnone
    exact (hresolve _ _).mono fun _ _ _ _ _ _ => Or.inl hnone
  · rename_i claimed _ hclaimed
    split
    · exact quiet_ret (by rintro _ ⟨⟩; exact nofun)
    · exact (hresolve _ _).mono fun r hr bound hbound pageId hpage =>
        Or.inr ⟨_, hclaimed, hr bound hbound pageId hpage⟩
  · exact quiet_ret (by rintro _ ⟨⟩; exact nofun)

theorem quiet_scopedPost {v : GuestRequest × List Tick} (hguess : Guess sha256 kept v) :
    Quiet sha256 kept v.2 (scopedPost sha256 v.1).run fun _ => True := by
  unfold scopedPost
  split
  · exact quiet_ret trivial
  rename_i route hroute
  split
  · exact quiet_ret trivial
  split
  · exact quiet_ret trivial
  split
  · split
    · exact quiet_ret trivial
    refine quiet_except_bind (quiet_reading hguess.alone reads_boundPage) (fun bound _ => ?_)
      fun _ => trivial
    split <;> exact quiet_ret trivial
  split
  · exact quiet_ret trivial
  refine quiet_except_bind (quiet_boundPage hguess.alone) (fun bound hbound => ?_) fun _ => trivial
  split
  · exact quiet_ret trivial
  rename_i pageId
  split
  · exact quiet_ret trivial
  rename_i call hcall
  obtain ⟨now, hrefused⟩ := hguess.refused pageId (hbound pageId rfl) route call hroute hcall
  exact quiet_respond hguess.alone hrefused

theorem quiet_guestPost {v : GuestRequest × List Tick} (hguess : Guess sha256 kept v) :
    Quiet sha256 kept v.2 (guestPost sha256 v.1) fun _ => True := by
  unfold guestPost
  dsimp only
  split
  · exact quiet_ret trivial
  refine quiet_bind (p := (do arrive _; scopedPost sha256 v.1 : BrokerM Answer).run) ?_
  refine Quiet.mono (quiet_except_bind (quiet_reading hguess.alone reads_arrive)
    (fun _ _ => quiet_scopedPost hguess) fun _ => trivial) fun r _ => ?_
  split <;> exact quiet_ret trivial

/-- A guess leaves what is kept as it is, and only reads. -/
theorem inert_of_guess (v : GuestRequest × List Tick) (hguess : Guess sha256 kept v) :
    (listener sha256).Inert Op.reads kept v := by
  obtain ⟨hreads, hkept, -⟩ := (quiet_guestPost hguess).meet_of fun _ ht => ht
  have hrequest : (listener sha256).request kept v =
      ((guestPost sha256 v.1).meet (Op.perform sha256) v.2 kept).2 := by
    unfold Server.request
    split
    · rename_i hmeet
      exact (congrArg Prod.snd hmeet).symm
    · rename_i hmeet
      exact (congrArg Prod.snd hmeet).symm
  exact ⟨hrequest.trans hkept, hreads⟩

/-- **Guesses are as if nobody had made them.** However they are mixed with
the requests of guests: what is kept in the end is what the others leave,
the others are answered the same, and whatever is charged, written, sent or
called is so for the others, in the same order, from the same state. -/
theorem guesses_count_for_nothing (kept : Kept) (xs : List (Bool × GuestRequest × List Tick))
    (hxs : (listener sha256).Marks (Guess sha256) kept xs) :
    (listener sha256).play kept (xs.map Prod.snd) =
        (listener sha256).play kept ((xs.filter fun x => !x.1).map Prod.snd) ∧
      Server.unmarked xs ((listener sha256).outcomes kept (xs.map Prod.snd)) =
        (listener sha256).outcomes kept ((xs.filter fun x => !x.1).map Prod.snd) ∧
      (((listener sha256).events kept (xs.map Prod.snd)).filter fun ev => !ev.op.reads) =
        ((listener sha256).events kept ((xs.filter fun x => !x.1).map Prod.snd)).filter
          fun ev => !ev.op.reads :=
  Server.play_unmarked (hxs.mono fun _ v hv => inert_of_guess v hv)

end Quiet

/-! ## A guess at the gate -/

/-- Somebody tries an invitation of his own making. -/
def triedRequest : GuestRequest where
  path := "/guest/v1/bootstrap"
  headers := lookRequest.headers
  body := some [("grant_id", .str gateGrant.id), ("bootstrap", .str "no-invitation-0001")]
  clockNs := 0

/-- Questions at the gate, while nothing goes wrong. -/
def gateTicks : List Tick := List.replicate 24 ⟨lookedAt, [], 0⟩

/-- A listener that has just started, with the session of the guest. -/
def gateKept : Kept := .new lookedAt.db 0

theorem tried_is_guess :
    letI := Python.plain
    Guess lookDigest gateKept (triedRequest, gateTicks) := by
  let _ := Python.plain
  refine ⟨fun t ht => ?_, fun pageId _ route call hroute hcall => ?_⟩
  · rw [List.eq_of_mem_replicate ht]
  have hpath : Route.ofPath? triedRequest.path = some .bootstrap := by decide
  obtain rfl := Option.some.inj (hpath.symm.trans hroute)
  have hparse : triedRequest.body.bind Route.bootstrap.parse =
      some (.bootstrap gateGrant.id "no-invitation-0001") := rfl
  obtain rfl := Option.some.inj (hparse.symm.trans hcall)
  refine ⟨gateWorld.clock, fun t ht => ?_⟩
  rw [List.eq_of_mem_replicate ht]
  refine ⟨le_refl _, ?_⟩
  rintro _ ⟨⟩ grant hfind
  obtain rfl := List.mem_singleton.mp (List.mem_of_find?_eq_some hfind)
  exact Or.inl (by decide)

theorem guesses_count_for_nothing_gate :
    letI := Python.plain
    (listener lookDigest).play gateKept [(triedRequest, gateTicks), (lookRequest, gateTicks)] =
      (listener lookDigest).play gateKept [(lookRequest, gateTicks)] :=
  let _ := Python.plain
  (guesses_count_for_nothing gateKept
    [(true, triedRequest, gateTicks), (false, lookRequest, gateTicks)]
    ⟨fun _ => tried_is_guess, nofun, trivial⟩).1

end Broker

end AccessPages
