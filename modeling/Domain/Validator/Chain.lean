import Mathlib.Logic.Relation
import Domain.Validator.Walk

/-! The chain of trust `get_node` builds. What each secure node rests on: an
anchored key for the anchor's node, a key a validated DS points at for a
delegation, a validated CNAME, NSEC or NSEC3 group for an intermediate node.
And the walk itself: from any cache that lookups, clock advances and evictions
reach, `get_node` resolves a name by the walk from its closest start. -/

namespace Domain.Validator

/-- What a secure node from `create_child_node` rests on. A non-intermediate one
rests on the first DS group of the DS reply, at the name and validated secure
under the parent, and on a key it points at; an intermediate one holds no keys,
has the parent's signer, and rests on a CNAME, NSEC or NSEC3 group validated
secure under the parent. -/
def SecureChildProof (E : Env) (name : Name) (parent : Node) (ctx : Ctx) (n : Node) : Prop :=
  let dsQ := E.upstream ctx.queries name Rtype.ds
  let ctx1 := ctx.sent name Rtype.ds dsQ.2
  (n.intermediate = false → ∃ dsGroup,
      ((E.groupReply dsQ.1).1.find? fun g => g.rtype = Rtype.ds) = some dsGroup ∧
      dsGroup.owner = name ∧ (E.validateWithNode ctx1.now dsGroup parent).1 = .secure ∧
      DelegationKeyProof E ctx1 name dsGroup n) ∧
  (n.intermediate = true → n.keys = [] ∧ n.signerName = parent.signerName ∧
      IntermediateProof E ctx1.now name parent (E.groupReply dsQ.1).1 (E.groupReply dsQ.1).2.1)

theorem secure_node_rests_on_key (E : Env) (ta : TrustAnchor) (name : Name) (parent n : Node)
    (ctx ctx' : Ctx) :
    (trustAnchor E ta ctx = .ok (n, ctx') → n.state = .secure → AnchorKeyProof E ta ctx n) ∧
      (createChildNode E name parent ctx = .ok (n, ctx') → n.state = .secure →
        SecureChildProof E name parent ctx n) := by
  refine ⟨fun h hs => ?_, fun h hs => ?_⟩
  · rcases (trustAnchor_eq_ok h).2 with ⟨-, hp⟩ | ⟨hb, -⟩
    · exact hp
    · exact (nomatch hb.symm.trans hs)
  rcases createChildNode_eq_ok rfl h with ⟨-, hb, -⟩ | ⟨-, _, ⟨-, hn, -⟩ | ⟨dsGroup, hfind, hn⟩⟩
  · exact (nomatch hb.symm.trans hs)
  · rcases noDsNode_eq_ok hn with ⟨hb, -⟩ | ⟨hi, -⟩ | ⟨-, hk, hint, hsig, hp⟩
    · exact (nomatch hb.symm.trans hs)
    · exact (nomatch hi.symm.trans hs)
    · exact ⟨fun hf => (nomatch hint.symm.trans hf), fun _ => ⟨hk, hsig, hp⟩⟩
  · obtain ⟨hown, hint, -, hcases⟩ := dsNode_eq_ok hn
    rcases hcases with ⟨hb, -⟩ | ⟨hsec, ⟨hi, -⟩ | ⟨-, hp⟩⟩
    · exact (nomatch hb.symm.trans hs)
    · exact (nomatch hi.symm.trans hs)
    · exact ⟨fun _ => ⟨dsGroup, hfind, hown, hsec, hp⟩, fun ht => (nomatch hint.symm.trans ht)⟩

open TestZone in
theorem secure_node_rests_on_key_at_ex :
    (trustAnchor env ⟨ex, [keyRr ex]⟩ ctx0 = .ok (exNode, ctx0.sent ex Rtype.dnskey 0) ∧
        exNode.state = .secure ∧ AnchorKeyProof env ⟨ex, [keyRr ex]⟩ ctx0 exNode) ∧
      (createChildNode env dEx exNode ctx0 =
          .ok (dNode, (ctx0.sent dEx Rtype.ds 0).sent dEx Rtype.dnskey 0) ∧
        dNode.state = .secure ∧ SecureChildProof env dEx exNode ctx0 dNode) :=
  ⟨⟨rfl, rfl, (secure_node_rests_on_key env ⟨ex, [keyRr ex]⟩ dEx exNode exNode ctx0 _).1 rfl rfl⟩,
    ⟨rfl, rfl, (secure_node_rests_on_key env ⟨ex, [keyRr ex]⟩ dEx exNode dNode ctx0 _).2 rfl rfl⟩⟩

/-- The names strictly below `top` down to `name`, root-closest first: the names a
walk from an anchor at `top` resolves. -/
def pathBelow (top : Name) : Name → List Name
  | [] => []
  | l :: parent => if top = l :: parent then [] else pathBelow top parent ++ [l :: parent]

/-- The deepest name of a root-first path with a live cached node: that node and
the names below it. -/
def lastCached (ctx : Ctx) : List Name → Option (Node × List Name)
  | [] => none
  | p :: ps =>
    match lastCached ctx ps with
    | some r => some r
    | none => (ctx.cacheLookup p).map fun n => (n, ps)

/-- The walk down the queue from a start node: one `create_child_node` per name,
in order, with the latest non-intermediate node as signer, each node cached,
stopping at the first node that is not secure. -/
def walkFrom (E : Env) : Node → Node → List Name → Ctx → Outcome (Node × Ctx)
  | node, _, [], ctx => .ok (node, ctx)
  | node, signer, n :: ns, ctx =>
    if node.state ≠ .secure then .ok (node, ctx)
    else
      createChildNode E n signer ctx >>= fun (child, ctx) =>
      walkFrom E child (if child.intermediate then signer else child) ns (ctx.cacheInsert n child)

/-- Where the walk for `name` under `ta` starts: the deepest live cached node
strictly between the anchor and `name`, or else the anchor's node, cached under
its owner. -/
def walkStart (E : Env) (ta : TrustAnchor) (name : Name) (ctx : Ctx) :
    Outcome ((Node × List Name) × Ctx) :=
  match lastCached ctx (pathBelow ta.owner name) with
  | some r => .ok (r, ctx)
  | none =>
    trustAnchor E ta ctx >>= fun (node, ctx) =>
      .ok ((node, pathBelow ta.owner name), ctx.cacheInsert ta.owner node)

/-- `get_node` under the anchor `ta`, as a walk from its closest start. -/
def getNodeSpec (E : Env) (ta : TrustAnchor) (name : Name) (ctx : Ctx) : Outcome (Node × Ctx) :=
  match ctx.cacheLookup name with
  | some node => .ok (node, ctx)
  | none =>
    if ta.owner = name then
      trustAnchor E ta ctx >>= fun (node, ctx) => .ok (node, ctx.cacheInsert name node)
    else walkStart E ta name ctx >>= fun ((node, queue), ctx) => walkFrom E node node queue ctx

theorem pathBelow_cons {top : Name} {l : Label} {parent : Name} (h : top ≠ l :: parent) :
    pathBelow top (l :: parent) = pathBelow top parent ++ [l :: parent] := by
  simp [pathBelow, h]

theorem pathBelow_self (top : Name) : pathBelow top top = [] := by
  cases top <;> simp [pathBelow]

theorem ne_nil_of_mem_pathBelow {top p : Name} : ∀ {name : Name}, p ∈ pathBelow top name → p ≠ []
  | [], h => absurd h (List.not_mem_nil _)
  | l :: parent, h => by
    unfold pathBelow at h
    split_ifs at h
    · exact absurd h (List.not_mem_nil _)
    rcases List.mem_append.mp h with h | h
    · exact ne_nil_of_mem_pathBelow h
    · rw [List.mem_singleton.mp h]; exact List.cons_ne_nil _ _

theorem lastCached_snoc (ctx : Ctx) (p : Name) : ∀ ps : List Name,
    lastCached ctx (ps ++ [p]) =
      match ctx.cacheLookup p with
      | some n => some (n, [])
      | none => (lastCached ctx ps).map fun r => (r.1, r.2 ++ [p])
  | [] => by
    rcases hp : ctx.cacheLookup p with _ | n <;> simp [lastCached, hp]
  | q :: qs => by
    have ih := lastCached_snoc ctx p qs
    rcases hp : ctx.cacheLookup p with _ | n <;> rcases hqs : lastCached ctx qs with _ | r <;>
      simp_all [lastCached, Option.map_map, Function.comp_def]

theorem lastCached_mem {ctx : Ctx} {n : Node} {q : List Name} :
    ∀ {ps : List Name}, lastCached ctx ps = some (n, q) → ∃ p ∈ ps, ctx.cacheLookup p = some n
  | [], h => by cases h
  | p :: ps, h => by
    unfold lastCached at h
    split at h
    · cases h
      exact List.exists_mem_cons_of_exists (lastCached_mem ‹_›)
    · obtain ⟨n', hn', h⟩ := Option.map_eq_some'.mp h
      cases h
      exact ⟨p, List.mem_cons_self _ _, hn'⟩

theorem findClosestNode_eq {E : Env} {ta : TrustAnchor} {ctx : Ctx} :
    ∀ {curr : Name} {names : List Name}, ta.owner <:+ curr →
      findClosestNode E ta names curr ctx =
        match lastCached ctx (pathBelow ta.owner curr) with
        | some (node, q) => .ok ((node, q ++ names), ctx)
        | none =>
          trustAnchor E ta ctx >>= fun (node, ctx') =>
            .ok ((node, pathBelow ta.owner curr ++ names), ctx'.cacheInsert ta.owner node)
  | [], names, hsuf => by
    have ho : ta.owner = [] := List.eq_nil_of_suffix_nil hsuf
    unfold findClosestNode
    simp [ho, pathBelow, lastCached]
  | l :: parent, names, hsuf => by
    unfold findClosestNode
    by_cases ho : ta.owner = l :: parent
    · simp [ho, pathBelow_self, lastCached]
    have hsuf' : ta.owner <:+ parent := (List.suffix_cons_iff.mp hsuf).resolve_left ho
    rw [if_neg ho, pathBelow_cons ho, lastCached_snoc]
    rcases ctx.cacheLookup (l :: parent) with _ | node
    · dsimp only
      rw [findClosestNode_eq hsuf']
      rcases lastCached ctx (pathBelow ta.owner parent) with _ | ⟨node, q⟩ <;> simp
    · rfl

theorem getNodeLoop_eq_walkFrom {E : Env} :
    ∀ {names : List Name} {node signer : Node} {ctx : Ctx}, names ≠ [] →
      node.state ≠ .indeterminate → getNodeLoop E node signer names ctx = walkFrom E node signer names ctx
  | [], _, _, _, hne, _ => absurd rfl hne
  | n :: ns, node, signer, ctx, _, hind => by
    unfold getNodeLoop
    rw [walkFrom]
    rcases hs : node.state
    · simp only [ne_eq, not_true_eq_false, if_false]
      apply Outcome.bind_congr
      rintro ⟨child, ctx'⟩ hc
      cases ns with
      | nil => simp [walkFrom]
      | cons m ms =>
        exact getNodeLoop_eq_walkFrom (List.cons_ne_nil _ _) (createChildNode_state hc).1
    · simp
    · simp
    · exact absurd hs hind

theorem Ctx.cacheLookup_eq_some {ctx : Ctx} {p : Name} {n : Node} :
    ctx.cacheLookup p = some n ↔ ctx.nodeCache p = some n ∧ n.expired ctx.now = false := by
  unfold Ctx.cacheLookup
  cases ctx.nodeCache p <;> simp only [Option.filter, reduceCtorEq, false_and]
  split_ifs with he <;> simp only [Option.some.injEq, reduceCtorEq, false_iff, not_and]
  · exact ⟨fun h => ⟨h, h ▸ by simpa using he⟩, fun h => h.1⟩
  · rintro rfl; simpa using he

/-- No live node below the root is indeterminate: `get_node` caches an
indeterminate node only at the root. -/
def CacheInv (ctx : Ctx) : Prop :=
  ∀ p n, p ≠ [] → ctx.nodeCache p = some n → n.state ≠ .indeterminate

theorem CacheInv.lastCached_state {ctx : Ctx} (hinv : CacheInv ctx) {top name : Name} {n : Node}
    {q : List Name} (h : lastCached ctx (pathBelow top name) = some (n, q)) :
    n.state ≠ .indeterminate :=
  have ⟨p, hp, hc⟩ := lastCached_mem h
  hinv p n (ne_nil_of_mem_pathBelow hp) (Ctx.cacheLookup_eq_some.mp hc).1

theorem trustAnchor_state {E : Env} {ta : TrustAnchor} {ctx ctx' : Ctx} {n : Node}
    (h : trustAnchor E ta ctx = .ok (n, ctx')) :
    n.state ≠ .indeterminate ∧ ctx'.nodeCache = ctx.nodeCache := by
  obtain ⟨rfl, ⟨hs, -⟩ | ⟨hs, -⟩⟩ := trustAnchor_eq_ok h <;> simp [hs]

theorem getNode_eq_spec {E : Env} {tas : TrustAnchors} {ta : TrustAnchor} {name : Name} {ctx : Ctx}
    (hfind : tas.find name = some ta) (hsuf : ta.owner <:+ name) (hinv : CacheInv ctx) :
    getNode E tas name ctx = getNodeSpec E ta name ctx := by
  unfold getNode getNodeSpec
  rcases hc : ctx.cacheLookup name with _ | node
  · rw [hfind]
    dsimp only
    split_ifs with ho
    · rfl
    cases name with
    | nil => exact absurd (List.eq_nil_of_suffix_nil hsuf) ho
    | cons l parent =>
    dsimp only
    rw [findClosestNode_eq ((List.suffix_cons_iff.mp hsuf).resolve_left ho)]
    unfold walkStart
    rw [pathBelow_cons ho, lastCached_snoc, hc]
    rcases hl : lastCached ctx (pathBelow ta.owner parent) with _ | ⟨start, q⟩
    · simp only [Option.map_none']
      apply Outcome.bind_congr
      rintro ⟨⟨node, names⟩, ctx'⟩ h
      obtain ⟨⟨n, ctx''⟩, ht, h⟩ := Outcome.bind_eq_ok.mp h
      cases h
      exact getNodeLoop_eq_walkFrom (by simp) (trustAnchor_state ht).1
    · simp only [Option.map_some', Outcome.ok_bind]
      exact getNodeLoop_eq_walkFrom (by simp) (hinv.lastCached_state hl)
  · rfl

theorem CacheInv.cacheInsert {ctx : Ctx} (hinv : CacheInv ctx) {name : Name} {n : Node}
    (hn : name ≠ [] → n.state ≠ .indeterminate) : CacheInv (ctx.cacheInsert name n) := by
  intro p m hp hm
  simp only [Ctx.cacheInsert] at hm
  split_ifs at hm with he
  · cases hm; exact hn (he ▸ hp)
  · exact hinv p m hp hm

theorem CacheInv.of_nodeCache {ctx ctx' : Ctx} (hinv : CacheInv ctx)
    (h : ctx'.nodeCache = ctx.nodeCache) : CacheInv ctx' :=
  fun p n hp hn => hinv p n hp (h ▸ hn)

theorem findClosestNode_inv {E : Env} {ta : TrustAnchor} {node : Node} {q : List Name}
    {names : List Name} {curr : Name} {ctx ctx' : Ctx} (hinv : CacheInv ctx)
    (h : findClosestNode E ta names curr ctx = .ok ((node, q), ctx')) : CacheInv ctx' := by
  induction names, curr, ctx using findClosestNode.induct E ta with
  | case1 names ctx =>
    unfold findClosestNode at h
    rw [if_pos rfl] at h
    obtain ⟨⟨n, ctx1⟩, ht, h⟩ := Outcome.bind_eq_ok.mp h
    cases h
    have ⟨hs, hc⟩ := trustAnchor_state ht
    exact (hinv.of_nodeCache hc).cacheInsert fun _ => hs
  | case2 curr names ctx hne n hc =>
    unfold findClosestNode at h
    rw [if_neg hne, hc] at h
    cases h
    exact hinv
  | case3 names ctx hne hc =>
    unfold findClosestNode at h
    rw [if_neg hne, hc] at h
    cases h
  | case4 names ctx l parent hne hc ih =>
    unfold findClosestNode at h
    rw [if_neg hne, hc] at h
    exact ih hinv h

theorem getNodeLoop_inv {E : Env} {n : Node} {node signer : Node} {names : List Name}
    {ctx ctx' : Ctx} (hinv : CacheInv ctx) (h : getNodeLoop E node signer names ctx = .ok (n, ctx')) :
    CacheInv ctx' := by
  induction node, signer, names, ctx using getNodeLoop.induct E with
  | case1 names node signer ctx hs | case2 names node signer ctx hs
  | case4 node signer ctx hs =>
    unfold getNodeLoop at h
    rw [hs] at h
    cases h
    exact hinv
  | case3 names node signer ctx hs =>
    unfold getNodeLoop at h
    rw [hs] at h
    cases h
  | case5 node signer ctx childName rest hs ih =>
    unfold getNodeLoop at h
    rw [hs] at h
    obtain ⟨⟨child, ctx1⟩, hc, h⟩ := Outcome.bind_eq_ok.mp h
    have ⟨hs, hcache, _⟩ := createChildNode_state hc
    have hinv' : CacheInv (ctx1.cacheInsert childName child) :=
      (hinv.of_nodeCache hcache).cacheInsert fun _ => hs
    dsimp only at h
    split at h
    · cases h
      exact hinv'
    · exact ih child ctx1 hinv' h

theorem getNode_inv {E : Env} {tas : TrustAnchors} {name : Name} {ctx ctx' : Ctx} {n : Node}
    (hinv : CacheInv ctx) (h : getNode E tas name ctx = .ok (n, ctx')) : CacheInv ctx' := by
  unfold getNode at h
  split at h
  · cases h; exact hinv
  split at h
  · cases h; exact hinv.cacheInsert fun hne => absurd rfl hne
  split_ifs at h
  · obtain ⟨⟨m, ctx1⟩, ht, h⟩ := Outcome.bind_eq_ok.mp h
    cases h
    have ⟨hs, hc⟩ := trustAnchor_state ht
    exact (hinv.of_nodeCache hc).cacheInsert fun _ => hs
  split at h
  · cases h
  obtain ⟨⟨⟨start, names⟩, ctx1⟩, hf, h⟩ := Outcome.bind_eq_ok.mp h
  exact getNodeLoop_inv (findClosestNode_inv hinv hf) h

/-- What may happen to the context between two lookups: a `get_node` call, time
passing, or a cache entry evicted. -/
inductive CtxStep (E : Env) (tas : TrustAnchors) : Ctx → Ctx → Prop
  | getNode {ctx ctx' : Ctx} {name : Name} {n : Node} :
      getNode E tas name ctx = .ok (n, ctx') → CtxStep E tas ctx ctx'
  | tick (ctx : Ctx) (t : Nat) : CtxStep E tas ctx { ctx with now := ctx.now + t }
  | evict (ctx : Ctx) (name : Name) :
      CtxStep E tas ctx { ctx with nodeCache := fun n => if n = name then none else ctx.nodeCache n }

/-- A context that lookups, clock advances and evictions reach from an empty node
cache. -/
def Reachable (E : Env) (tas : TrustAnchors) (ctx : Ctx) : Prop :=
  ∃ ctx0 : Ctx, (∀ name, ctx0.nodeCache name = none) ∧ Relation.ReflTransGen (CtxStep E tas) ctx0 ctx

theorem CtxStep.inv {E : Env} {tas : TrustAnchors} {ctx ctx' : Ctx} (hs : CtxStep E tas ctx ctx')
    (hinv : CacheInv ctx) : CacheInv ctx' := by
  cases hs with
  | getNode h => exact getNode_inv hinv h
  | tick => exact hinv
  | evict name =>
    intro p m hp hm
    simp only at hm
    split_ifs at hm
    exact hinv p m hp hm

theorem Reachable.inv {E : Env} {tas : TrustAnchors} {ctx : Ctx} (h : Reachable E tas ctx) :
    CacheInv ctx := by
  obtain ⟨ctx0, h0, hrun⟩ := h
  induction hrun with
  | refl => intro p m _ hm; simp [h0] at hm
  | tail _ hs ih => exact hs.inv ih

/-- A walk creates the nodes of a prefix of its queue, in order, and sends
queries for those names only; it stops early only at a node that is not secure,
and a secure result means the start and every node it created are secure. -/
theorem walkFrom_run {E : Env} {n : Node} {ctx' : Ctx} :
    ∀ {queue : List Name} {node signer : Node} {ctx : Ctx},
      walkFrom E node signer queue ctx = .ok (n, ctx') →
      ∃ walked rest new, queue = walked ++ rest ∧ ctx'.queries = ctx.queries ++ new ∧
        (∀ q ∈ new, q.1 ∈ walked) ∧ (rest ≠ [] → n.state ≠ .secure) ∧
        (∀ p, p ∉ walked → ctx'.nodeCache p = ctx.nodeCache p) ∧
        (n.state = .secure → node.state = .secure ∧
          ∀ p ∈ walked, ∃ m, ctx'.nodeCache p = some m ∧ m.state = .secure)
  | [], node, signer, ctx, h => by
    cases h
    exact ⟨[], [], [], rfl, by simp, by simp, by simp, fun _ _ => rfl, fun hs => ⟨hs, by simp⟩⟩
  | p :: ps, node, signer, ctx, h => by
    rw [walkFrom] at h
    split_ifs at h with hs
    · cases h
      exact ⟨[], p :: ps, [], rfl, by simp, by simp, fun _ => hs, fun _ _ => rfl,
        fun h' => absurd h' hs⟩
    obtain ⟨⟨child, ctx2⟩, hc, h⟩ := Outcome.bind_eq_ok.mp h
    obtain ⟨-, hcache, qs, hq, hqs⟩ := createChildNode_state hc
    obtain ⟨walked, rest, new, rfl, hnew, hin, hrest, hkeep, hsec⟩ := walkFrom_run h
    have hcached : ∀ p', p' ∉ walked →
        ctx'.nodeCache p' = if p' = p then some child else ctx.nodeCache p' := by
      intro p' hp'
      rw [hkeep p' hp', ← hcache]
      rfl
    refine ⟨p :: walked, rest, qs ++ new, rfl, by simp [hnew, hq], ?_, hrest, ?_, ?_⟩
    · intro q hq'
      rcases List.mem_append.mp hq' with h1 | h1
      · exact hqs q h1 ▸ List.mem_cons_self _ _
      · exact List.mem_cons_of_mem _ (hin q h1)
    · intro p' hp'
      rw [hcached p' fun h => hp' (List.mem_cons_of_mem _ h),
        if_neg fun (h : p' = p) => hp' (h ▸ List.mem_cons_self _ _)]
    · intro hns
      obtain ⟨hchild, hall⟩ := hsec hns
      refine ⟨not_not.mp hs, fun p' hp' => ?_⟩
      by_cases hw : p' ∈ walked
      · exact hall p' hw
      · obtain rfl : p' = p := (List.mem_cons.mp hp').resolve_right hw
        exact ⟨child, by rw [hcached p' hw, if_pos rfl], hchild⟩

theorem lastCached_eq_none {ctx : Ctx} :
    ∀ {ps : List Name}, lastCached ctx ps = none → ∀ p ∈ ps, ctx.cacheLookup p = none
  | [], _, _, hp => absurd hp (List.not_mem_nil _)
  | q :: qs, h, p, hp => by
    unfold lastCached at h
    split at h
    · cases h
    rename_i hqs
    rcases List.mem_cons.mp hp with rfl | hp
    · simpa using h
    · exact lastCached_eq_none hqs p hp

theorem lastCached_eq_some {ctx : Ctx} {n : Node} {q : List Name} :
    ∀ {ps : List Name}, lastCached ctx ps = some (n, q) →
      ∃ pre p, ps = pre ++ p :: q ∧ ctx.cacheLookup p = some n ∧ ∀ p' ∈ q, ctx.cacheLookup p' = none
  | [], h => by cases h
  | p :: ps, h => by
    unfold lastCached at h
    split at h
    · cases h
      obtain ⟨pre, p', rfl, hp', hq⟩ := lastCached_eq_some ‹_›
      exact ⟨p :: pre, p', rfl, hp', hq⟩
    · rename_i hps
      obtain ⟨n', hn', h⟩ := Option.map_eq_some'.mp h
      cases h
      exact ⟨[], p, rfl, hn', lastCached_eq_none hps⟩

theorem walkStart_eq_ok {E : Env} {ta : TrustAnchor} {name : Name} {ctx ctx1 : Ctx} {start : Node}
    {queue : List Name} (h : walkStart E ta name ctx = .ok ((start, queue), ctx1)) :
    (∃ pre p, pathBelow ta.owner name = pre ++ p :: queue ∧ ctx.cacheLookup p = some start ∧
        (∀ p' ∈ queue, ctx.cacheLookup p' = none) ∧ ctx1 = ctx) ∨
      (queue = pathBelow ta.owner name ∧ (∀ p ∈ queue, ctx.cacheLookup p = none) ∧
        ∃ ctx2, trustAnchor E ta ctx = .ok (start, ctx2) ∧ ctx1 = ctx2.cacheInsert ta.owner start) := by
  unfold walkStart at h
  split at h
  · cases h
    obtain ⟨pre, p, hp, hc, hq⟩ := lastCached_eq_some ‹_›
    exact .inl ⟨pre, p, hp, hc, hq, rfl⟩
  · rename_i hnone
    obtain ⟨⟨m, ctx2⟩, ht, h⟩ := Outcome.bind_eq_ok.mp h
    cases h
    exact .inr ⟨rfl, lastCached_eq_none hnone, ctx2, ht, rfl⟩

/-- `get_node` under the anchor `ta` walks from the closest start: it is
`getNodeSpec`; the walk starts at the deepest live cached name strictly below the
anchor, or at the anchor's node when the path has none; it creates the nodes of a
prefix of the remaining path, root first, and queries only those names; it stops
early only at a node that is not secure; and a secure result means the start
and every node it created are secure. -/
def WalksFromClosestStart (E : Env) (tas : TrustAnchors) (ta : TrustAnchor) (name : Name)
    (ctx : Ctx) : Prop :=
  getNode E tas name ctx = getNodeSpec E ta name ctx ∧
    ∀ start queue ctx1 n ctx', walkStart E ta name ctx = .ok ((start, queue), ctx1) →
      walkFrom E start start queue ctx1 = .ok (n, ctx') →
      ((∃ pre p, pathBelow ta.owner name = pre ++ p :: queue ∧ ctx.cacheLookup p = some start ∧
          ∀ p' ∈ queue, ctx.cacheLookup p' = none) ∨
        queue = pathBelow ta.owner name ∧ (∀ p ∈ queue, ctx.cacheLookup p = none) ∧
          ∃ ctx2, trustAnchor E ta ctx = .ok (start, ctx2)) ∧
      ∃ walked rest new, queue = walked ++ rest ∧ ctx'.queries = ctx1.queries ++ new ∧
        (∀ q ∈ new, q.1 ∈ walked) ∧ (rest ≠ [] → n.state ≠ .secure) ∧
        (n.state = .secure → start.state = .secure ∧
          ∀ p ∈ walked, ∃ m, ctx'.nodeCache p = some m ∧ m.state = .secure)

theorem getNode_walks_from_closest_start {E : Env} {tas : TrustAnchors} {ta : TrustAnchor}
    {name : Name} {ctx : Ctx} (hreach : Reachable E tas ctx) (hfind : tas.find name = some ta)
    (hsuf : ta.owner <:+ name) : WalksFromClosestStart E tas ta name ctx := by
  refine ⟨getNode_eq_spec hfind hsuf hreach.inv, fun start queue ctx1 n ctx' hs hw => ⟨?_, ?_⟩⟩
  · rcases walkStart_eq_ok hs with ⟨pre, p, h1, h2, h3, -⟩ | ⟨h1, h2, ctx2, h3, -⟩
    · exact .inl ⟨pre, p, h1, h2, h3⟩
    · exact .inr ⟨h1, h2, ctx2, h3⟩
  · obtain ⟨walked, rest, new, h1, h2, h3, h4, -, h5⟩ := walkFrom_run hw
    exact ⟨walked, rest, new, h1, h2, h3, h4, h5⟩

namespace TestZone

/-- The context `get_node` leaves after a lookup of `a.ex` from the empty cache:
the anchor node cached under `ex`, the secure intermediate node under `a.ex`. -/
def ctxAfterAEx : Ctx :=
  match getNode env anchors aEx ctx0 with
  | .ok (_, ctx) => ctx
  | _ => ctx0

end TestZone

open TestZone in
theorem getNode_walks_at_bAEx :
    Reachable env anchors ctxAfterAEx ∧ anchors.find bAEx = some ⟨ex, [keyRr ex]⟩ ∧ ex <:+ bAEx ∧
      WalksFromClosestStart env anchors ⟨ex, [keyRr ex]⟩ bAEx ctxAfterAEx :=
  have hstep : getNode env anchors aEx ctx0 = .ok (aNode, ctxAfterAEx) := rfl
  have hreach : Reachable env anchors ctxAfterAEx := ⟨ctx0, fun _ => rfl, .single (.getNode hstep)⟩
  have hsuf : ex <:+ bAEx := ⟨[[3], [2]], rfl⟩
  ⟨hreach, rfl, hsuf, getNode_walks_from_closest_start hreach rfl hsuf⟩

end Domain.Validator
