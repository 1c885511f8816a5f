import AccessPages.Broker.Handler
/-!
# Broker — questions that only read

Before a request is known to come from a guest, the broker reads: the
registry, the published policy, the grants, the session and the clock.
Nothing is charged, written, sent or called until then. Here are the parts
of a request that do no more than this.
-/

namespace AccessPages

namespace Broker

open Prog (Asks)

/-- A question that reads a file, the session database or the clock. -/
def Op.reads : Op → Bool
  | loadPolicy _ => true
  | loadGrants _ => true
  | time => true
  | sessionInfo .. => true
  | verifiedUntil .. => true
  | registry => true
  | actionRemaining => true
  | _ => false

/-- The question only reads. -/
def Op.Reads (e : Op) : Prop := e.reads = true

variable [Python] {sha256 : String → String} {pageId grantId session resourceId : String}

omit [Python] in
theorem reads_ask {e : Op} (he : e.reads = true) : Asks Op.Reads (ask e).run :=
  ⟨he, fun _ => trivial⟩

omit [Python] in
theorem reads_page : Asks Op.Reads (page pageId).run := by
  refine Prog.asks_except_bind (reads_ask rfl) fun loaded => ?_
  split <;> trivial

theorem reads_currentGuestGrant : Asks Op.Reads (currentGuestGrant pageId grantId).run := by
  refine Prog.asks_except_bind (reads_ask rfl) fun loaded => ?_
  split
  · trivial
  · trivial
  split
  · trivial
  refine Prog.asks_except_bind Prog.asks_except_lift fun expiry => ?_
  refine Prog.asks_except_bind (x := time) (reads_ask rfl) fun now => ?_
  split <;> trivial

omit [Python] in
theorem reads_guestSessionResult {expiry : Int} {grant : Pages.Grant} :
    Asks Op.Reads (guestSessionResult pageId grantId expiry grant session).run := by
  unfold guestSessionResult
  split
  · refine Prog.asks_except_bind (reads_ask rfl) fun verified => ?_
    split <;> trivial
  · trivial

theorem reads_guestSessionStatus :
    Asks Op.Reads (guestSessionStatus pageId grantId session).run := by
  refine Prog.asks_except_bind (reads_ask rfl) fun info => ?_
  split
  · trivial
  split
  · trivial
  refine Prog.asks_except_bind reads_currentGuestGrant fun current => ?_
  split
  · trivial
  split
  · trivial
  refine Prog.asks_except_bind (x := time) (reads_ask rfl) fun now => ?_
  split
  · trivial
  · exact Prog.asks_except_bind reads_guestSessionResult fun _ => trivial

theorem reads_resumeGuestBootstrap {secret : Json} :
    Asks Op.Reads (resumeGuestBootstrap sha256 pageId grantId session secret).run := by
  refine Prog.asks_except_bind reads_guestSessionStatus fun status => ?_
  refine Prog.asks_except_bind reads_currentGuestGrant fun current => ?_
  split
  · split <;> trivial
  · trivial
  · trivial

theorem reads_verifiedGuestContext :
    Asks Op.Reads (verifiedGuestContext pageId grantId session).run := by
  refine Prog.asks_except_bind reads_guestSessionStatus fun status => ?_
  refine Prog.asks_except_bind reads_currentGuestGrant fun current => ?_
  split <;> trivial

theorem reads_readySession : Asks Op.Reads (readySession pageId grantId session).run := by
  refine Prog.asks_except_bind reads_guestSessionStatus fun status => ?_
  split
  · trivial
  · split <;> trivial

theorem reads_stillReady : Asks Op.Reads (stillReady pageId grantId session).run := by
  refine Prog.asks_except_bind reads_guestSessionStatus fun status => ?_
  split <;> trivial

omit [Python] in
theorem reads_publishedGuestResource :
    Asks Op.Reads (publishedGuestResource pageId resourceId).run := by
  refine Prog.asks_except_bind (reads_ask rfl) fun loaded => ?_
  split <;> trivial

omit [Python] in
theorem reads_guestPageIdentity {capability : String} :
    Asks Op.Reads (guestPageIdentity sha256 capability).run := by
  unfold guestPageIdentity
  split
  · trivial
  have hregistry : Asks Op.Reads readRegistry.run := by
    refine Prog.asks_except_tryCatch (x := registryFile) (reads_ask rfl) fun e => ?_
    split <;> trivial
  refine Prog.asks_except_bind hregistry fun registry => ?_
  split
  · trivial
  refine Prog.asks_except_bind (reads_ask rfl) fun loaded => ?_
  split <;> trivial

omit [Python] in
theorem reads_boundPage {headers : Headers} : Asks Op.Reads (boundPage sha256 headers).run := by
  have hresolve : ∀ capability claimed,
      Asks Op.Reads (boundPage.resolve sha256 capability claimed).run := by
    intro capability claimed
    refine Prog.asks_except_bind reads_guestPageIdentity fun identity => ?_
    split
    · trivial
    · split <;> trivial
  unfold boundPage
  split
  · exact hresolve _ _
  · split
    · trivial
    · exact hresolve _ _
  · trivial

omit [Python] in
theorem reads_arrive {timing : Option Guest.RequestTiming} :
    Asks Op.Reads (arrive timing).run := by
  unfold arrive
  split
  · refine Prog.asks_except_bind (x := actionRemaining) (reads_ask rfl) fun inTime => ?_
    split <;> trivial
  · trivial

end Broker

end AccessPages
