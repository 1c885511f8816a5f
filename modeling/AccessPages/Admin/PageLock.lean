import Mathlib
/-!
# Admin — the lock of a page

`page_action_lock`: one re-entrant lock for each page that is in use. An
entry of the table is created by the first thread that asks for it and
deleted by the last one that leaves, both under a guard; the lock itself
is waited for and released outside of it. Threads take turns at every
single access to what they share, and a thread may ask for further pages,
or the same one, from inside. How the body ends makes no difference:
`finally` is all that follows.
-/

namespace AccessPages

namespace PageLock

variable {T K : Type}

/-! ## What is shared -/

/-- `{"lock": RLock(), "users": 0}`: the thread that owns the lock, how many
times it has acquired it, and the users. -/
structure Entry (T : Type) where
  owner : Option T
  depth : Nat
  users : Int

/-- `_PAGE_ACTION_LOCKS_GUARD`, `_PAGE_ACTION_LOCKS`, and the entries that
were ever created, by the order of their creation. -/
structure Shared (T K : Type) where
  guard : Option T
  table : K → Option Nat
  heap : Nat → Entry T
  fresh : Nat

/-- Where a thread is in `page_action_lock`. The entry it works with is `e`;
`users` is the count it has read. -/
inductive Pc where
  | entering
  | looking
  | counting (e : Nat)
  | counted (e : Nat) (users : Int)
  | admitted (e : Nat)
  | waiting (e : Nat)
  | inside (e : Nat)
  | leaving (e : Nat)
  | uncounting (e : Nat)
  | uncounted (e : Nat) (users : Int)
  | checking (e : Nat)
  | dropping (e : Nat)
  | left
  deriving DecidableEq, Repr

/-- A call of `page_action_lock` that has not returned. -/
structure Activation (T K : Type) where
  thread : T
  pageId : K
  pc : Pc

def Shared.setUsers (s : Shared T K) (e : Nat) (n : Int) : Shared T K :=
  { s with heap := Function.update s.heap e { s.heap e with users := n } }

def Shared.setLock (s : Shared T K) (e : Nat) (owner : Option T) (depth : Nat) : Shared T K :=
  { s with heap := Function.update s.heap e { s.heap e with owner, depth } }

/-- The guard, if it is free. -/
def Shared.acquireGuard (s : Shared T K) (t : T) (pc : Pc) : Option (Shared T K × Option Pc) :=
  match s.guard with
  | none => some ({ s with guard := some t }, some pc)
  | some _ => none

section Steps

variable [DecidableEq T] [DecidableEq K]

/-- The next operation of a call: what it does to the shared state, and
where it leaves the call, unless that returns. A call that has to wait has
none. -/
def next (s : Shared T K) (a : Activation T K) : Option (Shared T K × Option Pc) :=
  match a.pc with
  | .entering => s.acquireGuard a.thread .looking
  | .looking =>
      -- `setdefault` creates the entry whether or not it is needed
      let e := (s.table a.pageId).getD s.fresh
      some ({ s with
        table := Function.update s.table a.pageId (some e)
        heap := Function.update s.heap s.fresh ⟨none, 0, 0⟩
        fresh := s.fresh + 1 }, some (.counting e))
  | .counting e => some (s, some (.counted e (s.heap e).users))
  | .counted e n => some (s.setUsers e (n + 1), some (.admitted e))
  | .admitted e => some ({ s with guard := none }, some (.waiting e))
  | .waiting e =>
      match (s.heap e).owner with
      | none => some (s.setLock e (some a.thread) 1, some (.inside e))
      | some t =>
          if t = a.thread then some (s.setLock e (some t) ((s.heap e).depth + 1), some (.inside e))
          else none
  | .inside e =>
      if (s.heap e).owner = some a.thread then
        some (s.setLock e (if (s.heap e).depth = 1 then none else some a.thread)
          ((s.heap e).depth - 1), some (.leaving e))
      else some (s, none) -- `release` raises a `RuntimeError`
  | .leaving e => s.acquireGuard a.thread (.uncounting e)
  | .uncounting e => some (s, some (.uncounted e (s.heap e).users))
  | .uncounted e n => some (s.setUsers e (n - 1), some (.checking e))
  | .checking e =>
      some (s, some (if (s.heap e).users = 0 ∧ s.table a.pageId = some e then .dropping e else .left))
  | .dropping _ => some ({ s with table := Function.update s.table a.pageId none }, some .left)
  | .left => some ({ s with guard := none }, none)

/-! ## Threads -/

/-- The calls in progress, for each thread the innermost one first. -/
structure State (T K : Type) where
  shared : Shared T K
  calls : List (Activation T K)

/-- No thread has asked for a page yet. -/
def State.empty : State T K := ⟨⟨none, fun _ => none, fun _ => ⟨none, 0, 0⟩, 0⟩, []⟩

/-- The innermost call of a thread, between those before and those after it. -/
def focus (t : T) : List (Activation T K) →
    Option (List (Activation T K) × Activation T K × List (Activation T K))
  | [] => none
  | a :: as =>
      if a.thread = t then some ([], a, as)
      else (focus t as).map fun (pre, b, post) => (a :: pre, b, post)

/-- What happens next: a thread calls `page_action_lock`, or goes on with the
call it is in. From the body it may do either. -/
inductive Move (T K : Type) where
  | enter (t : T) (pageId : K)
  | go (t : T)

def Pc.isInside : Pc → Bool
  | .inside _ => true
  | _ => false

def State.move (s : State T K) : Move T K → State T K
  | .enter t pageId =>
      match focus t s.calls with
      | some (_, a, _) =>
          if a.pc.isInside then { s with calls := ⟨t, pageId, .entering⟩ :: s.calls } else s
      | none => { s with calls := ⟨t, pageId, .entering⟩ :: s.calls }
  | .go t =>
      match focus t s.calls with
      | none => s
      | some (pre, a, post) =>
          match next s.shared a with
          | none => s
          | some (shared, pc) =>
              ⟨shared, pre ++ (pc.toList.map fun pc => { a with pc }) ++ post⟩

/-- The state after the moves. -/
def State.play (s : State T K) (ms : List (Move T K)) : State T K := ms.foldl State.move s

end Steps

/-! ## What a call is up to -/

namespace Pc

/-- It holds the guard. -/
def guarded : Pc → Bool
  | looking | counting _ | counted _ _ | admitted _ => true
  | uncounting _ | uncounted _ _ | checking _ | dropping _ | left => true
  | entering | waiting _ | inside _ | leaving _ => false

/-- The entry it is registered with: from `setdefault` until it has left the
table to the others. -/
def entry? : Pc → Option Nat
  | counting e | counted e _ | admitted e | waiting e | inside e => some e
  | leaving e | uncounting e | uncounted e _ | checking e | dropping e => some e
  | entering | looking | left => none

/-- The entry that counts it as a user. -/
def counts? : Pc → Option Nat
  | admitted e | waiting e | inside e | leaving e | uncounting e | uncounted e _ => some e
  | _ => none

/-- The entry whose lock it holds. -/
def holds? : Pc → Option Nat
  | inside e => some e
  | _ => none

/-- The users it has read, and goes by. -/
def reads? : Pc → Option (Nat × Int)
  | counted e n | uncounted e n => some (e, n)
  | dropping e => some (e, 0)
  | _ => none

theorem entry_of_counts {pc : Pc} {e : Nat} (h : pc.counts? = some e) : pc.entry? = some e := by
  cases pc <;> first | exact h | cases h

theorem counts_of_holds {pc : Pc} {e : Nat} (h : pc.holds? = some e) : pc.counts? = some e := by
  cases pc <;> first | exact h | cases h

theorem guarded_of_reads {pc : Pc} {r : Nat × Int} (h : pc.reads? = some r) :
    pc.guarded = true := by
  cases pc <;> first | rfl | cases h

/-- Outside the guard, a call that is registered is counted. -/
theorem counts_of_entry {pc : Pc} {e : Nat} (hpc : pc.guarded = false) (h : pc.entry? = some e) :
    pc.counts? = some e := by
  cases pc <;> first | exact h | cases hpc

end Pc

/-! ## The invariant -/

/-- What the shared state and the calls in progress always satisfy. -/
structure Inv (s : Shared T K) (calls : List (Activation T K)) : Prop where
  /-- A call in a critical section has the guard, and there is only one. -/
  guard : ∀ a ∈ calls, a.pc.guarded = true → s.guard = some a.thread
  one : calls.countP (·.pc.guarded) ≤ 1
  /-- A registered call works with the entry of its page. -/
  entry : ∀ a ∈ calls, ∀ e, a.pc.entry? = some e → s.table a.pageId = some e
  created : ∀ p e, s.table p = some e → e < s.fresh
  injective : ∀ p q e, s.table p = some e → s.table q = some e → p = q
  /-- Every entry of the table has a call registered with it. -/
  used : ∀ p e, s.table p = some e → ∃ a ∈ calls, a.pc.entry? = some e
  users : ∀ e, (s.heap e).users = calls.countP (·.pc.counts? = some e)
  depth : ∀ e, (s.heap e).depth = calls.countP (·.pc.holds? = some e)
  /-- A call inside belongs to the owner of the lock. -/
  owner : ∀ a ∈ calls, ∀ e, a.pc.holds? = some e → (s.heap e).owner = some a.thread
  reads : ∀ a ∈ calls, ∀ e n, a.pc.reads? = some (e, n) → (s.heap e).users = n

theorem Inv.initial : Inv (State.empty (T := T) (K := K)).shared [] where
  guard := nofun
  one := Nat.zero_le _
  entry := nofun
  created := nofun
  injective := nofun
  used := nofun
  users _ := rfl
  depth _ := rfl
  owner := nofun
  reads := nofun

/-- The order of the calls says nothing. -/
theorem Inv.perm {s : Shared T K} {calls calls' : List (Activation T K)} (h : Inv s calls)
    (hp : calls.Perm calls') : Inv s calls' where
  guard a ha := h.guard a (hp.mem_iff.mpr ha)
  one := hp.countP_eq _ ▸ h.one
  entry a ha := h.entry a (hp.mem_iff.mpr ha)
  created := h.created
  injective := h.injective
  used p e he := by
    obtain ⟨a, ha, hae⟩ := h.used p e he
    exact ⟨a, hp.mem_iff.mp ha, hae⟩
  users e := hp.countP_eq _ ▸ h.users e
  depth e := hp.countP_eq _ ▸ h.depth e
  owner a ha := h.owner a (hp.mem_iff.mpr ha)
  reads a ha := h.reads a (hp.mem_iff.mpr ha)

variable {s : Shared T K} {a : Activation T K} {rest : List (Activation T K)} {e : Nat} {pc : Pc}

/-- In a critical section a call is alone. -/
theorem Inv.alone (h : Inv s (a :: rest)) (ha : a.pc.guarded = true) :
    ∀ b ∈ rest, b.pc.guarded = false := by
  have hone := h.one
  simp only [List.countP_cons, ha, if_true] at hone
  have hzero : rest.countP (·.pc.guarded) = 0 := by omega
  intro b hb
  simpa using List.countP_eq_zero.mp hzero b hb

/-- Without the guard nobody is in a critical section. -/
theorem Inv.unguarded (h : Inv s (a :: rest)) (hs : s.guard = none) :
    ∀ b ∈ a :: rest, b.pc.guarded = false := by
  intro b hb
  rw [Bool.eq_false_iff]
  intro hg
  rw [h.guard b hb hg] at hs
  cases hs

/-- In a critical section, the others have read nothing. -/
theorem reads_none (halone : ∀ b ∈ rest, b.pc.guarded = false) :
    ∀ b ∈ rest, b.pc.reads? = none := by
  intro b hb
  rw [Option.eq_none_iff_forall_ne_some]
  intro r hr
  exact absurd (Pc.guarded_of_reads hr) (by simp [halone b hb])

theorem countP_zero_of_alone (halone : ∀ b ∈ rest, b.pc.guarded = false) :
    rest.countP (·.pc.guarded) = 0 := by
  rw [List.countP_eq_zero]
  intro b hb
  simp [halone b hb]

theorem Inv.one_cons (halone : ∀ b ∈ rest, b.pc.guarded = false) (a : Activation T K) :
    (a :: rest).countP (·.pc.guarded) ≤ 1 := by
  rw [List.countP_cons, countP_zero_of_alone halone]
  split <;> omega

/-- No call works with an entry that is not created yet. -/
theorem Inv.entry_ne_fresh (h : Inv s (a :: rest)) :
    ∀ b ∈ a :: rest, b.pc.entry? ≠ some s.fresh :=
  fun b hb he => absurd (h.created _ _ (h.entry b hb _ he)) (Nat.lt_irrefl _)

/-! ## What each operation keeps -/

@[simp] theorem setUsers_table (n : Int) : (s.setUsers e n).table = s.table := rfl

@[simp] theorem setLock_table (owner : Option T) (depth : Nat) :
    (s.setLock e owner depth).table = s.table := rfl

theorem setUsers_users (n : Int) (e' : Nat) :
    ((s.setUsers e n).heap e').users = if e' = e then n else (s.heap e').users := by
  by_cases he : e' = e
  · subst he
    simp only [Shared.setUsers, Function.update_self, if_true]
  · simp only [Shared.setUsers, Function.update_of_ne he, if_neg he]

@[simp] theorem setUsers_owner (n : Int) (e' : Nat) :
    ((s.setUsers e n).heap e').owner = (s.heap e').owner := by
  by_cases he : e' = e
  · subst he
    simp only [Shared.setUsers, Function.update_self]
  · simp only [Shared.setUsers, Function.update_of_ne he]

@[simp] theorem setUsers_depth (n : Int) (e' : Nat) :
    ((s.setUsers e n).heap e').depth = (s.heap e').depth := by
  by_cases he : e' = e
  · subst he
    simp only [Shared.setUsers, Function.update_self]
  · simp only [Shared.setUsers, Function.update_of_ne he]

@[simp] theorem setLock_users (owner : Option T) (depth : Nat) (e' : Nat) :
    ((s.setLock e owner depth).heap e').users = (s.heap e').users := by
  by_cases he : e' = e
  · subst he
    simp only [Shared.setLock, Function.update_self]
  · simp only [Shared.setLock, Function.update_of_ne he]

theorem setLock_owner (owner : Option T) (depth : Nat) (e' : Nat) :
    ((s.setLock e owner depth).heap e').owner = if e' = e then owner else (s.heap e').owner := by
  by_cases he : e' = e
  · subst he
    simp only [Shared.setLock, Function.update_self, if_true]
  · simp only [Shared.setLock, Function.update_of_ne he, if_neg he]

theorem setLock_depth (owner : Option T) (depth : Nat) (e' : Nat) :
    ((s.setLock e owner depth).heap e').depth = if e' = e then depth else (s.heap e').depth := by
  by_cases he : e' = e
  · subst he
    simp only [Shared.setLock, Function.update_self, if_true]
  · simp only [Shared.setLock, Function.update_of_ne he, if_neg he]

/-- The call with the entry it had. -/
theorem Inv.entry_goOn (h : Inv s (a :: rest)) (hentry : pc.entry? = a.pc.entry?) :
    ∀ b ∈ { a with pc } :: rest, ∀ e, b.pc.entry? = some e → s.table b.pageId = some e := by
  obtain ⟨ha, hrest⟩ := List.forall_mem_cons.mp h.entry
  exact List.forall_mem_cons.mpr ⟨fun e he => ha e (hentry ▸ he), hrest⟩

theorem Inv.used_goOn (h : Inv s (a :: rest)) (hentry : pc.entry? = a.pc.entry?) :
    ∀ p e, s.table p = some e → ∃ b ∈ { a with pc } :: rest, b.pc.entry? = some e := by
  intro p e he
  obtain ⟨b, hb, hbe⟩ := h.used p e he
  rcases List.mem_cons.mp hb with rfl | hb
  · exact ⟨_, List.mem_cons_self, hentry.trans hbe⟩
  · exact ⟨b, List.mem_cons_of_mem _ hb, hbe⟩

theorem Inv.users_goOn (h : Inv s (a :: rest)) (hcounts : pc.counts? = some e ↔ a.pc.counts? = some e) :
    (s.heap e).users = ({ a with pc } :: rest).countP (·.pc.counts? = some e) := by
  have hu := h.users e
  rw [List.countP_cons] at hu ⊢
  simpa only [hcounts] using hu

theorem Inv.depth_goOn (h : Inv s (a :: rest)) (hholds : pc.holds? = some e ↔ a.pc.holds? = some e) :
    (s.heap e).depth = ({ a with pc } :: rest).countP (·.pc.holds? = some e) := by
  have hd := h.depth e
  rw [List.countP_cons] at hd ⊢
  simpa only [hholds] using hd

theorem Inv.owner_goOn (h : Inv s (a :: rest)) (hholds : pc.holds? = a.pc.holds?) :
    ∀ b ∈ { a with pc } :: rest, ∀ e, b.pc.holds? = some e → (s.heap e).owner = some b.thread := by
  obtain ⟨ha, hrest⟩ := List.forall_mem_cons.mp h.owner
  exact List.forall_mem_cons.mpr ⟨fun e he => ha e (hholds ▸ he), hrest⟩

/-- A call that goes on with the same entry, and may take the guard or give
it back. -/
theorem Inv.goOn (h : Inv s (a :: rest)) {guard : Option T} (hentry : pc.entry? = a.pc.entry?)
    (hcounts : pc.counts? = a.pc.counts?) (hholds : pc.holds? = a.pc.holds?)
    (halone : ∀ b ∈ rest, b.pc.guarded = false)
    (hguard : pc.guarded = true → guard = some a.thread)
    (hreads : ∀ e n, pc.reads? = some (e, n) → (s.heap e).users = n) :
    Inv { s with guard } ({ a with pc } :: rest) where
  guard := List.forall_mem_cons.mpr ⟨hguard, fun b hb hg => by simp [halone b hb] at hg⟩
  one := Inv.one_cons halone _
  entry := h.entry_goOn hentry
  created := h.created
  injective := h.injective
  used := h.used_goOn hentry
  users e := h.users_goOn (by rw [hcounts])
  depth e := h.depth_goOn (by rw [hholds])
  owner := h.owner_goOn hholds
  reads := by
    refine List.forall_mem_cons.mpr ⟨hreads, fun b hb e n hr => ?_⟩
    rw [reads_none halone b hb] at hr
    cases hr

/-- A call that writes the users of its entry, alone in its critical section. -/
theorem Inv.countUsers (h : Inv s (a :: rest)) {n : Int} (ha : a.pc.guarded = true)
    (hentry : pc.entry? = a.pc.entry?) (hholds : pc.holds? = a.pc.holds?)
    (hreads : pc.reads? = none)
    (hother : ∀ e', e' ≠ e → (pc.counts? = some e' ↔ a.pc.counts? = some e'))
    (hn : n = ({ a with pc } :: rest).countP (·.pc.counts? = some e)) :
    Inv (s.setUsers e n) ({ a with pc } :: rest) where
  guard := by
    refine List.forall_mem_cons.mpr ⟨fun _ => h.guard a List.mem_cons_self ha, fun b hb hg => ?_⟩
    simp [h.alone ha b hb] at hg
  one := Inv.one_cons (h.alone ha) _
  entry := h.entry_goOn hentry
  created := h.created
  injective := h.injective
  used := h.used_goOn hentry
  users e' := by
    rw [setUsers_users]
    split
    · rename_i he
      rw [hn, he]
    · rename_i he
      exact h.users_goOn (hother e' he)
  depth e' := by
    rw [setUsers_depth]
    exact h.depth_goOn (by rw [hholds])
  owner b hb e' he := by
    rw [setUsers_owner]
    exact h.owner_goOn hholds b hb e' he
  reads := by
    refine List.forall_mem_cons.mpr ⟨fun e n hr => ?_, fun b hb e n hr => ?_⟩
    · rw [show pc.reads? = some (e, n) from hr] at hreads
      cases hreads
    · rw [reads_none (h.alone ha) b hb] at hr
      cases hr

/-- A call that acquires or releases the lock of its entry. -/
theorem Inv.takeLock (h : Inv s (a :: rest)) {owner : Option T} {depth : Nat}
    (ha : a.pc.guarded = false) (hpc : pc.guarded = false) (hentry : pc.entry? = a.pc.entry?)
    (hcounts : pc.counts? = a.pc.counts?)
    (hother : ∀ e', e' ≠ e → (pc.holds? = some e' ↔ a.pc.holds? = some e'))
    (hdepth : depth = ({ a with pc } :: rest).countP (·.pc.holds? = some e))
    (howner : ∀ b ∈ { a with pc } :: rest, b.pc.holds? = some e → owner = some b.thread) :
    Inv (s.setLock e owner depth) ({ a with pc } :: rest) where
  guard := by
    obtain ⟨-, hrest⟩ := List.forall_mem_cons.mp h.guard
    refine List.forall_mem_cons.mpr ⟨fun hg => ?_, hrest⟩
    rw [show pc.guarded = true from hg] at hpc
    cases hpc
  one := by
    have hone := h.one
    simp only [List.countP_cons, ha, hpc] at hone ⊢
    exact hone
  entry := h.entry_goOn hentry
  created := h.created
  injective := h.injective
  used := h.used_goOn hentry
  users e' := by
    rw [setLock_users]
    exact h.users_goOn (by rw [hcounts])
  depth e' := by
    rw [setLock_depth]
    split
    · rename_i he
      rw [hdepth, he]
    · rename_i he
      exact h.depth_goOn (hother e' he)
  owner b hb e' he := by
    rw [setLock_owner]
    split
    · rename_i hee
      exact howner b hb (hee ▸ he)
    · rename_i hne
      obtain ⟨hself, hrest⟩ := List.forall_mem_cons.mp h.owner
      rcases List.mem_cons.mp hb with rfl | hb
      · exact hself e' ((hother e' hne).mp he)
      · exact hrest b hb e' he
  reads := by
    obtain ⟨-, hrest⟩ := List.forall_mem_cons.mp h.reads
    refine List.forall_mem_cons.mpr ⟨fun e n hr => ?_, fun b hb e n hr => ?_⟩
    · have hg := Pc.guarded_of_reads hr
      rw [show pc.guarded = true from hg] at hpc
      cases hpc
    · rw [setLock_users]
      exact hrest b hb e n hr

/-- `setdefault`: the entry of the page, or one that is new. -/
theorem Inv.lookUp [DecidableEq K] (h : Inv s (a :: rest)) (ha : a.pc = .looking) :
    let e := (s.table a.pageId).getD s.fresh
    Inv { s with
        table := Function.update s.table a.pageId (some e)
        heap := Function.update s.heap s.fresh ⟨none, 0, 0⟩
        fresh := s.fresh + 1 } ({ a with pc := .counting e } :: rest) := by
  intro e
  have hguarded : a.pc.guarded = true := by rw [ha]; rfl
  have halone := h.alone hguarded
  have hfresh := h.entry_ne_fresh
  -- only the page of the call may get another entry, and only if it had none
  have hkeep : ∀ p e', s.table p = some e' →
      Function.update s.table a.pageId (some e) p = some e' := by
    intro p e' hp
    by_cases hpa : p = a.pageId
    · subst hpa
      rw [Function.update_self, show e = e' from by simp only [e, hp, Option.getD_some]]
    · rw [Function.update_of_ne hpa, hp]
  have hback : ∀ p e', Function.update s.table a.pageId (some e) p = some e' →
      (p = a.pageId ∧ e' = e) ∨ s.table p = some e' := by
    intro p e' hp
    by_cases hpa : p = a.pageId
    · subst hpa
      rw [Function.update_self] at hp
      exact .inl ⟨rfl, (Option.some.inj hp).symm⟩
    · rw [Function.update_of_ne hpa] at hp
      exact .inr hp
  have hnew : s.table a.pageId = some e ∨ e = s.fresh := by
    cases ht : s.table a.pageId with
    | none => exact .inr (by simp only [e, ht, Option.getD_none])
    | some e' => exact .inl (by simp only [e, ht, Option.getD_some])
  have hheap : ∀ e', e' ≠ s.fresh →
      Function.update s.heap s.fresh ⟨none, 0, 0⟩ e' = s.heap e' :=
    fun e' he => Function.update_of_ne he _ _
  have hcount : ∀ (f : Pc → Option Nat), (∀ pc e, f pc = some e → pc.entry? = some e) →
      f (.counting e) = none → ∀ e', (e' = s.fresh →
        ({ a with pc := .counting e } :: rest).countP (fun b => f b.pc = some e') = 0) ∧
      ({ a with pc := .counting e } :: rest).countP (fun b => f b.pc = some e') =
        (a :: rest).countP (fun b => f b.pc = some e') := by
    intro f hf hcounting e'
    have hlooking : f a.pc ≠ some e' := by
      intro hfa
      have := hf _ _ hfa
      rw [ha] at this
      cases this
    rw [List.countP_cons, List.countP_cons]
    simp only [hcounting, hlooking, reduceCtorEq, decide_false, Bool.false_eq_true, if_false,
      Nat.add_zero, and_true]
    rintro rfl
    rw [List.countP_eq_zero]
    intro b hb hbe
    rw [decide_eq_true_eq] at hbe
    exact hfresh b (List.mem_cons_of_mem _ hb) (hf _ _ hbe)
  exact {
    guard := List.forall_mem_cons.mpr ⟨fun _ => h.guard a List.mem_cons_self hguarded,
      fun b hb hg => by simp [halone b hb] at hg⟩
    one := Inv.one_cons halone _
    entry := by
      obtain ⟨-, hrest⟩ := List.forall_mem_cons.mp h.entry
      refine List.forall_mem_cons.mpr ⟨fun e' he => ?_, fun b hb e' he => hkeep _ _ (hrest b hb e' he)⟩
      obtain rfl := Option.some.inj he
      exact Function.update_self _ _ _
    created := by
      intro p e' hp
      show e' < s.fresh + 1
      rcases hback p e' hp with ⟨-, rfl⟩ | hp
      · rcases hnew with hold | heq
        · exact Nat.lt_succ_of_lt (h.created _ _ hold)
        · exact heq ▸ Nat.lt_succ_self _
      · exact Nat.lt_succ_of_lt (h.created p e' hp)
    injective := by
      have hother : ∀ p, s.table p = some e → p = a.pageId := by
        intro p hp
        rcases hnew with hold | heq
        · exact h.injective _ _ e hp hold
        · exact absurd (heq ▸ h.created p e hp) (Nat.lt_irrefl _)
      intro p q e' hp hq
      rcases hback p e' hp with ⟨rfl, rfl⟩ | hp
      · rcases hback q _ hq with ⟨rfl, -⟩ | hq
        · rfl
        · exact (hother q hq).symm
      · rcases hback q e' hq with ⟨rfl, rfl⟩ | hq
        · exact hother p hp
        · exact h.injective p q e' hp hq
    used := by
      intro p e' hp
      rcases hback p e' hp with ⟨-, rfl⟩ | hp
      · exact ⟨_, List.mem_cons_self, rfl⟩
      · obtain ⟨b, hb, hbe⟩ := h.used p e' hp
        rcases List.mem_cons.mp hb with rfl | hb
        · rw [ha] at hbe
          cases hbe
        · exact ⟨b, List.mem_cons_of_mem _ hb, hbe⟩
    users := by
      intro e'
      obtain ⟨hzero, hsame⟩ := hcount Pc.counts? (fun _ _ => Pc.entry_of_counts) rfl e'
      by_cases he : e' = s.fresh
      · rw [hzero he]
        subst he
        simp only [Function.update_self, Int.natCast_zero]
      · rw [hsame]
        simp only [hheap e' he]
        exact h.users e'
    depth := by
      intro e'
      obtain ⟨hzero, hsame⟩ := hcount Pc.holds?
        (fun _ _ hh => Pc.entry_of_counts (Pc.counts_of_holds hh)) rfl e'
      by_cases he : e' = s.fresh
      · rw [hzero he]
        subst he
        simp only [Function.update_self]
      · rw [hsame]
        simp only [hheap e' he]
        exact h.depth e'
    owner := by
      obtain ⟨-, hrest⟩ := List.forall_mem_cons.mp h.owner
      refine List.forall_mem_cons.mpr ⟨nofun, fun b hb e' he => ?_⟩
      have hne : e' ≠ s.fresh := by
        rintro rfl
        exact hfresh b (List.mem_cons_of_mem _ hb) (Pc.entry_of_counts (Pc.counts_of_holds he))
      simp only [hheap e' hne]
      exact hrest b hb e' he
    reads := by
      refine List.forall_mem_cons.mpr ⟨nofun, fun b hb e n hr => ?_⟩
      rw [reads_none halone b hb] at hr
      cases hr }

/-- A call leaves the table to those that are still counted. -/
theorem Inv.leaveEntry (h : Inv s (a :: rest)) (ha : a.pc = .checking e)
    (hne : (s.heap e).users ≠ 0) : Inv s ({ a with pc := .left } :: rest) := by
  have hguarded : a.pc.guarded = true := by rw [ha]; rfl
  have halone := h.alone hguarded
  have hcounts : Pc.left.counts? = a.pc.counts? := by rw [ha]; rfl
  have hholds : Pc.left.holds? = a.pc.holds? := by rw [ha]; rfl
  obtain ⟨b, hb, hbe⟩ : ∃ b ∈ rest, b.pc.counts? = some e := by
    have hu := h.users e
    rw [List.countP_cons_of_neg (by simp [ha, Pc.counts?])] at hu
    have hpos : 0 < rest.countP (·.pc.counts? = some e) := by omega
    obtain ⟨b, hb, hbe⟩ := List.countP_pos_iff.mp hpos
    exact ⟨b, hb, of_decide_eq_true hbe⟩
  exact {
    guard := List.forall_mem_cons.mpr ⟨fun _ => h.guard a List.mem_cons_self hguarded,
      fun b hb hg => by simp [halone b hb] at hg⟩
    one := Inv.one_cons halone _
    entry := List.forall_mem_cons.mpr ⟨nofun, (List.forall_mem_cons.mp h.entry).2⟩
    created := h.created
    injective := h.injective
    used := by
      intro p e' hp
      obtain ⟨c, hc, hce⟩ := h.used p e' hp
      rcases List.mem_cons.mp hc with rfl | hc
      · rw [ha] at hce
        obtain rfl := Option.some.inj hce
        exact ⟨b, List.mem_cons_of_mem _ hb, Pc.entry_of_counts hbe⟩
      · exact ⟨c, List.mem_cons_of_mem _ hc, hce⟩
    users := fun e' => h.users_goOn (by rw [hcounts])
    depth := fun e' => h.depth_goOn (by rw [hholds])
    owner := h.owner_goOn hholds
    reads := by
      refine List.forall_mem_cons.mpr ⟨nofun, fun b hb e n hr => ?_⟩
      rw [reads_none halone b hb] at hr
      cases hr }

/-- The last call takes the entry out of the table. -/
theorem Inv.dropEntry [DecidableEq K] (h : Inv s (a :: rest)) (ha : a.pc = .dropping e) :
    Inv { s with table := Function.update s.table a.pageId none } ({ a with pc := .left } :: rest) := by
  have hguarded : a.pc.guarded = true := by rw [ha]; rfl
  have halone := h.alone hguarded
  have hcounts : Pc.left.counts? = a.pc.counts? := by rw [ha]; rfl
  have hholds : Pc.left.holds? = a.pc.holds? := by rw [ha]; rfl
  have htable : s.table a.pageId = some e := h.entry a List.mem_cons_self e (by rw [ha]; rfl)
  have hzero : rest.countP (·.pc.counts? = some e) = 0 := by
    have hread := h.reads a List.mem_cons_self e 0 (by rw [ha]; rfl)
    have hu := h.users e
    rw [hread, List.countP_cons] at hu
    omega
  -- the others are counted where they are registered, so none is with this entry
  have hothers : ∀ b ∈ rest, b.pc.entry? ≠ some e := by
    intro b hb hbe
    have hcounted := Pc.counts_of_entry (halone b hb) hbe
    exact absurd (decide_eq_true hcounted) (List.countP_eq_zero.mp hzero b hb)
  have hback : ∀ p e', Function.update s.table a.pageId none p = some e' → s.table p = some e' := by
    intro p e' hp
    by_cases hpa : p = a.pageId
    · subst hpa
      rw [Function.update_self] at hp
      cases hp
    · rwa [Function.update_of_ne hpa] at hp
  exact {
    guard := List.forall_mem_cons.mpr ⟨fun _ => h.guard a List.mem_cons_self hguarded,
      fun b hb hg => by simp [halone b hb] at hg⟩
    one := Inv.one_cons halone _
    entry := by
      refine List.forall_mem_cons.mpr ⟨nofun, fun b hb e' he => ?_⟩
      have hold := h.entry b (List.mem_cons_of_mem _ hb) e' he
      have hne : b.pageId ≠ a.pageId := by
        intro heq
        rw [heq, htable] at hold
        obtain rfl := Option.some.inj hold
        exact hothers b hb he
      exact (Function.update_of_ne hne _ _).trans hold
    created := fun p e' hp => h.created p e' (hback p e' hp)
    injective := fun p q e' hp hq => h.injective p q e' (hback p e' hp) (hback q e' hq)
    used := by
      intro p e' hp
      obtain ⟨b, hb, hbe⟩ := h.used p e' (hback p e' hp)
      rcases List.mem_cons.mp hb with rfl | hb
      · rw [ha] at hbe
        obtain rfl := Option.some.inj hbe
        obtain rfl := h.injective _ _ e htable (hback p e hp)
        have hgone := (Function.update_self b.pageId none s.table).symm.trans hp
        cases hgone
      · exact ⟨b, List.mem_cons_of_mem _ hb, hbe⟩
    users := fun e' => h.users_goOn (by rw [hcounts])
    depth := fun e' => h.depth_goOn (by rw [hholds])
    owner := h.owner_goOn hholds
    reads := by
      refine List.forall_mem_cons.mpr ⟨nofun, fun b hb e n hr => ?_⟩
      rw [reads_none halone b hb] at hr
      cases hr }

/-- A call returns, and gives the guard back. -/
theorem Inv.returns (h : Inv s (a :: rest)) (ha : a.pc = .left) : Inv { s with guard := none } rest := by
  have halone := h.alone (by rw [ha]; rfl)
  exact {
    guard := fun b hb hg => by simp [halone b hb] at hg
    one := by rw [countP_zero_of_alone halone]; exact Nat.zero_le _
    entry := (List.forall_mem_cons.mp h.entry).2
    created := h.created
    injective := h.injective
    used := by
      intro p e' hp
      obtain ⟨b, hb, hbe⟩ := h.used p e' hp
      rcases List.mem_cons.mp hb with rfl | hb
      · rw [ha] at hbe
        cases hbe
      · exact ⟨b, hb, hbe⟩
    users := by
      intro e'
      have hu := h.users e'
      rw [List.countP_cons] at hu
      simpa [ha, Pc.counts?] using hu
    depth := by
      intro e'
      have hd := h.depth e'
      rw [List.countP_cons] at hd
      simpa [ha, Pc.holds?] using hd
    owner := (List.forall_mem_cons.mp h.owner).2
    reads := (List.forall_mem_cons.mp h.reads).2 }

/-- A call arrives. -/
theorem Inv.arrives (h : Inv s rest) (t : T) (p : K) : Inv s (⟨t, p, .entering⟩ :: rest) where
  guard := List.forall_mem_cons.mpr ⟨nofun, h.guard⟩
  one := by
    have hone := h.one
    rw [List.countP_cons]
    simpa [Pc.guarded] using hone
  entry := List.forall_mem_cons.mpr ⟨nofun, h.entry⟩
  created := h.created
  injective := h.injective
  used p e he := by
    obtain ⟨b, hb, hbe⟩ := h.used p e he
    exact ⟨b, List.mem_cons_of_mem _ hb, hbe⟩
  users e := by
    rw [List.countP_cons]
    simpa [Pc.counts?] using h.users e
  depth e := by
    rw [List.countP_cons]
    simpa [Pc.holds?] using h.depth e
  owner := List.forall_mem_cons.mpr ⟨nofun, h.owner⟩
  reads := List.forall_mem_cons.mpr ⟨nofun, h.reads⟩

section Reachable

variable [DecidableEq T] [DecidableEq K]

/-- **What one operation keeps.** -/
theorem Inv.next {shared : Shared T K} {pc : Option Pc} (h : Inv s (a :: rest))
    (hnext : PageLock.next s a = some (shared, pc)) :
    Inv shared ((pc.toList.map fun pc => { a with pc }) ++ rest) := by
  unfold PageLock.next at hnext
  split at hnext
  all_goals rename_i ha
  · -- entering
    unfold Shared.acquireGuard at hnext
    split at hnext
    · rename_i hs
      obtain ⟨rfl, rfl⟩ := Prod.mk.inj (Option.some.inj hnext)
      exact h.goOn (by rw [ha]; rfl) (by rw [ha]; rfl) (by rw [ha]; rfl)
        (fun b hb => h.unguarded hs b (List.mem_cons_of_mem _ hb)) (fun _ => rfl) nofun
    · cases hnext
  · -- looking
    obtain ⟨rfl, rfl⟩ := Prod.mk.inj (Option.some.inj hnext)
    exact h.lookUp ha
  · -- counting
    rename_i e
    obtain ⟨rfl, rfl⟩ := Prod.mk.inj (Option.some.inj hnext)
    have hg : a.pc.guarded = true := by rw [ha]; rfl
    refine h.goOn (by rw [ha]; rfl) (by rw [ha]; rfl) (by rw [ha]; rfl) (h.alone hg)
      (fun _ => h.guard a List.mem_cons_self hg) fun e' n hr => ?_
    obtain ⟨rfl, rfl⟩ := Prod.mk.inj (Option.some.inj hr)
    rfl
  · -- counted
    rename_i e n
    obtain ⟨rfl, rfl⟩ := Prod.mk.inj (Option.some.inj hnext)
    have hread := h.reads a List.mem_cons_self e n (by rw [ha]; rfl)
    have hu := h.users e
    rw [List.countP_cons_of_neg (by simp [ha, Pc.counts?])] at hu
    refine h.countUsers (by rw [ha]; rfl) (by rw [ha]; rfl) (by rw [ha]; rfl) rfl ?_ ?_
    · intro e' he
      rw [ha]
      exact iff_of_false (fun hc => he (Option.some.inj hc).symm) nofun
    · rw [List.countP_cons_of_pos (by simp [Pc.counts?])]
      omega
  · -- admitted
    obtain ⟨rfl, rfl⟩ := Prod.mk.inj (Option.some.inj hnext)
    exact h.goOn (by rw [ha]; rfl) (by rw [ha]; rfl) (by rw [ha]; rfl)
      (h.alone (by rw [ha]; rfl)) nofun nofun
  · -- waiting
    rename_i e
    have hd := h.depth e
    rw [List.countP_cons_of_neg (by simp [ha, Pc.holds?])] at hd
    have hrest := (List.forall_mem_cons.mp h.owner).2
    split at hnext
    · rename_i hfree
      obtain ⟨rfl, rfl⟩ := Prod.mk.inj (Option.some.inj hnext)
      have hnobody : ∀ b ∈ rest, b.pc.holds? ≠ some e := by
        intro b hb hbe
        rw [hrest b hb e hbe] at hfree
        cases hfree
      refine h.takeLock (by rw [ha]; rfl) rfl (by rw [ha]; rfl) (by rw [ha]; rfl) ?_ ?_ ?_
      · intro e' he
        rw [ha]
        exact iff_of_false (fun hc => he (Option.some.inj hc).symm) nofun
      · have hzero : rest.countP (·.pc.holds? = some e) = 0 :=
          List.countP_eq_zero.mpr fun b hb => by simpa using hnobody b hb
        rw [List.countP_cons_of_pos (by simp [Pc.holds?]), hzero]
      · exact List.forall_mem_cons.mpr ⟨fun _ => rfl, fun b hb hbe => absurd hbe (hnobody b hb)⟩
    · rename_i t howner
      split at hnext
      · rename_i hself
        obtain ⟨rfl, rfl⟩ := Prod.mk.inj (Option.some.inj hnext)
        refine h.takeLock (by rw [ha]; rfl) rfl (by rw [ha]; rfl) (by rw [ha]; rfl) ?_ ?_ ?_
        · intro e' he
          rw [ha]
          exact iff_of_false (fun hc => he (Option.some.inj hc).symm) nofun
        · rw [List.countP_cons_of_pos (by simp [Pc.holds?]), hd]
        · refine List.forall_mem_cons.mpr ⟨fun _ => congrArg some hself, fun b hb hbe => ?_⟩
          exact howner.symm.trans (hrest b hb e hbe)
      · cases hnext
  · -- inside
    rename_i e
    have howner := h.owner a List.mem_cons_self e (by rw [ha]; rfl)
    have hd := h.depth e
    rw [List.countP_cons_of_pos (by simp [ha, Pc.holds?])] at hd
    have hrest := (List.forall_mem_cons.mp h.owner).2
    rw [if_pos howner] at hnext
    obtain ⟨rfl, rfl⟩ := Prod.mk.inj (Option.some.inj hnext)
    refine h.takeLock (by rw [ha]; rfl) rfl (by rw [ha]; rfl) (by rw [ha]; rfl) ?_ ?_ ?_
    · intro e' he
      rw [ha]
      exact iff_of_false nofun (fun hc => he (Option.some.inj hc).symm)
    · rw [List.countP_cons_of_neg (by simp [Pc.holds?])]
      omega
    · refine List.forall_mem_cons.mpr ⟨nofun, fun b hb hbe => ?_⟩
      -- whoever else is inside keeps the lock acquired
      have hpos : 0 < rest.countP (·.pc.holds? = some e) :=
        List.countP_pos_iff.mpr ⟨b, hb, decide_eq_true hbe⟩
      rw [if_neg (by omega)]
      exact howner.symm.trans (hrest b hb e hbe)
  · -- leaving
    unfold Shared.acquireGuard at hnext
    split at hnext
    · rename_i hs
      obtain ⟨rfl, rfl⟩ := Prod.mk.inj (Option.some.inj hnext)
      exact h.goOn (by rw [ha]; rfl) (by rw [ha]; rfl) (by rw [ha]; rfl)
        (fun b hb => h.unguarded hs b (List.mem_cons_of_mem _ hb)) (fun _ => rfl) nofun
    · cases hnext
  · -- uncounting
    rename_i e
    obtain ⟨rfl, rfl⟩ := Prod.mk.inj (Option.some.inj hnext)
    have hg : a.pc.guarded = true := by rw [ha]; rfl
    refine h.goOn (by rw [ha]; rfl) (by rw [ha]; rfl) (by rw [ha]; rfl) (h.alone hg)
      (fun _ => h.guard a List.mem_cons_self hg) fun e' n hr => ?_
    obtain ⟨rfl, rfl⟩ := Prod.mk.inj (Option.some.inj hr)
    rfl
  · -- uncounted
    rename_i e n
    obtain ⟨rfl, rfl⟩ := Prod.mk.inj (Option.some.inj hnext)
    have hread := h.reads a List.mem_cons_self e n (by rw [ha]; rfl)
    have hu := h.users e
    rw [List.countP_cons_of_pos (by simp [ha, Pc.counts?])] at hu
    refine h.countUsers (by rw [ha]; rfl) (by rw [ha]; rfl) (by rw [ha]; rfl) rfl ?_ ?_
    · intro e' he
      rw [ha]
      exact iff_of_false nofun (fun hc => he (Option.some.inj hc).symm)
    · rw [List.countP_cons_of_neg (by simp [Pc.counts?])]
      omega
  · -- checking
    rename_i e
    obtain ⟨rfl, rfl⟩ := Prod.mk.inj (Option.some.inj hnext)
    have htable : s.table a.pageId = some e := h.entry a List.mem_cons_self e (by rw [ha]; rfl)
    have hg : a.pc.guarded = true := by rw [ha]; rfl
    by_cases hzero : (s.heap e).users = 0
    · rw [if_pos ⟨hzero, htable⟩]
      refine h.goOn (by rw [ha]; rfl) (by rw [ha]; rfl) (by rw [ha]; rfl) (h.alone hg)
        (fun _ => h.guard a List.mem_cons_self hg) fun e' n hr => ?_
      obtain ⟨rfl, rfl⟩ := Prod.mk.inj (Option.some.inj hr)
      exact hzero
    · rw [if_neg fun hc => hzero hc.1]
      exact h.leaveEntry ha hzero
  · -- dropping
    obtain ⟨rfl, rfl⟩ := Prod.mk.inj (Option.some.inj hnext)
    exact h.dropEntry ha
  · -- left
    obtain ⟨rfl, rfl⟩ := Prod.mk.inj (Option.some.inj hnext)
    exact h.returns ha

omit [DecidableEq K] in
theorem focus_eq_some {t : T} {calls pre post : List (Activation T K)}
    (h : focus t calls = some (pre, a, post)) : calls = pre ++ a :: post := by
  induction calls generalizing pre with
  | nil => cases h
  | cons b calls ih =>
      unfold focus at h
      split at h
      · obtain ⟨rfl, rfl, rfl⟩ := by simpa using h
        rfl
      · obtain ⟨⟨pre', b', post'⟩, hf, heq⟩ := Option.map_eq_some_iff.mp h
        obtain ⟨rfl, rfl, rfl⟩ := by simpa using heq
        rw [ih hf]
        rfl

/-- What one move keeps. -/
theorem Inv.move {s : State T K} (h : Inv s.shared s.calls) (m : Move T K) :
    Inv (s.move m).shared (s.move m).calls := by
  cases m with
  | enter t p =>
      unfold State.move
      dsimp only
      split
      · split
        · exact h.arrives t p
        · exact h
      · exact h.arrives t p
  | go t =>
      unfold State.move
      dsimp only
      split
      · exact h
      · rename_i pre a post hf
        split
        · exact h
        · rename_i shared pc hnext
          have hcalls := focus_eq_some hf
          have hstep := (h.perm (hcalls ▸ List.perm_middle)).next hnext
          refine hstep.perm ?_
          rw [List.append_assoc]
          exact List.perm_append_comm_assoc _ _ _

theorem Inv.play {s : State T K} (h : Inv s.shared s.calls) (ms : List (Move T K)) :
    Inv (s.play ms).shared (s.play ms).calls := by
  induction ms generalizing s with
  | nil => exact h
  | cons m ms ih => exact ih (h.move m)

/-- **One lock for a page, and one thread inside.** Whatever moves the
threads make: two calls inside for one page belong to one thread; a page
some thread is registered for has an entry, and it is the one they all
work with; and a page nobody is registered for has none. -/
theorem page_lock_is_mutex (ms : List (Move T K)) :
    let s := State.empty.play ms
    (∀ a ∈ s.calls, ∀ b ∈ s.calls, a.pc.isInside = true → b.pc.isInside = true →
      a.pageId = b.pageId → a.thread = b.thread) ∧
    (∀ a ∈ s.calls, ∀ e, a.pc.entry? = some e → s.shared.table a.pageId = some e) ∧
    (∀ a ∈ s.calls, ∀ b ∈ s.calls, ∀ e e', a.pc.entry? = some e → b.pc.entry? = some e' →
      a.pageId = b.pageId → e = e') ∧
    ∀ p, (∀ a ∈ s.calls, a.pageId = p → a.pc.entry? = none) → s.shared.table p = none := by
  intro s
  have h : Inv s.shared s.calls := Inv.initial.play ms
  have hsame : ∀ a ∈ s.calls, ∀ b ∈ s.calls, ∀ e e', a.pc.entry? = some e →
      b.pc.entry? = some e' → a.pageId = b.pageId → e = e' := by
    intro a ha b hb e e' hae hbe hab
    have hta := h.entry a ha e hae
    have htb := h.entry b hb e' hbe
    rw [hab, htb] at hta
    exact (Option.some.inj hta).symm
  refine ⟨?_, h.entry, hsame, ?_⟩
  · intro a ha b hb hai hbi hab
    obtain ⟨e, hae⟩ : ∃ e, a.pc.holds? = some e := by
      cases hpc : a.pc <;> first | exact ⟨_, rfl⟩ | (rw [hpc] at hai; cases hai)
    obtain ⟨e', hbe⟩ : ∃ e, b.pc.holds? = some e := by
      cases hpc : b.pc <;> first | exact ⟨_, rfl⟩ | (rw [hpc] at hbi; cases hbi)
    obtain rfl := hsame a ha b hb e e' (Pc.entry_of_counts (Pc.counts_of_holds hae))
      (Pc.entry_of_counts (Pc.counts_of_holds hbe)) hab
    have hoa := h.owner a ha e hae
    have hob := h.owner b hb e hbe
    exact Option.some.inj (hoa.symm.trans hob)
  · intro p hnone
    cases hp : s.shared.table p with
    | none => rfl
    | some e =>
        obtain ⟨a, ha, hae⟩ := h.used p e hp
        have hpage := h.injective _ _ e (h.entry a ha e hae) hp
        rw [hnone a ha hpage] at hae
        cases hae

end Reachable

end PageLock

end AccessPages
