import Domain.Validator.Anchor
import Domain.Validator.Delegation

/-! `get_node`: the validated state at a name, from the node cache, a trust
anchor, or a walk down the delegations from the closest anchor or cached
ancestor. `find_closest_node` collects the names to resolve on the way up. -/

namespace Domain.Validator

structure TrustAnchors where
  find : Name → Option TrustAnchor

/-- Modelled from the spec: `TrustAnchors::find` (the anchor module is not in
src/) selects, by longest-suffix match, the anchor whose owner is the name or its
closest ancestor. -/
def TrustAnchors.ofList (tas : List TrustAnchor) : TrustAnchors :=
  ⟨fun name =>
    (tas.filter fun ta => ta.owner.isSuffixOf name).foldl
      (fun best ta =>
        match best with
        | some b => if b.owner.length < ta.owner.length then some ta else some b
        | none => some ta) none⟩

/-- `cache_lookup`: the cached node of a name, unless it has expired. -/
def Ctx.cacheLookup (ctx : Ctx) (name : Name) : Option Node :=
  (ctx.nodeCache name).filter fun n => !n.expired ctx.now

def Ctx.cacheInsert (ctx : Ctx) (name : Name) (node : Node) : Ctx :=
  { ctx with nodeCache := fun n => if n = name then some node else ctx.nodeCache n }

@[simp] theorem Ctx.cacheInsert_now (ctx : Ctx) (name : Name) (node : Node) :
    (ctx.cacheInsert name node).now = ctx.now := rfl

@[simp] theorem Ctx.cacheInsert_queries (ctx : Ctx) (name : Name) (node : Node) :
    (ctx.cacheInsert name node).queries = ctx.queries := rfl

/-- `find_closest_node` from `curr` upward: the anchor node once `curr` is the
anchor's owner (the anchor is checked before the cache), else the cached node of
`curr`, else one level up. `names` holds the names to resolve, root-closest
first; running past the root fails the `expect`. -/
def findClosestNode (E : Env) (ta : TrustAnchor) (names : List Name) (curr : Name) (ctx : Ctx) :
    Outcome ((Node × List Name) × Ctx) :=
  if ta.owner = curr then
    trustAnchor E ta ctx >>= fun (node, ctx) => .ok ((node, names), ctx.cacheInsert curr node)
  else
    match ctx.cacheLookup curr, curr with
    | some node, _ => .ok ((node, names), ctx)
    | none, [] => .panic
    | none, l :: parent => findClosestNode E ta ((l :: parent) :: names) parent ctx

/-- The loop of `get_node`: stop at an insecure or bogus node, otherwise create
the next child with the current signer, cache it, and make it the signer unless
it is intermediate. -/
def getNodeLoop (E : Env) (node signerNode : Node) (names : List Name) (ctx : Ctx) :
    Outcome (Node × Ctx) :=
  match node.state, names with
  | .insecure, _ => .ok (node, ctx)
  | .bogus, _ => .ok (node, ctx)
  | .indeterminate, _ => .panic
  | .secure, [] => .ok (node, ctx)
  | .secure, childName :: rest =>
    createChildNode E childName signerNode ctx >>= fun (child, ctx) =>
    let ctx := ctx.cacheInsert childName child
    let signerNode := if child.intermediate then signerNode else child
    if rest.isEmpty then .ok (child, ctx) else getNodeLoop E child signerNode rest ctx

def getNode (E : Env) (tas : TrustAnchors) (name : Name) (ctx : Ctx) : Outcome (Node × Ctx) :=
  match ctx.cacheLookup name with
  | some node => .ok (node, ctx)
  | none =>
    match tas.find name with
    | none =>
      let node := Node.indeterminate []
        (makeEde ExtendedErrorCode.dnssecIndeterminate "No trust anchor for root.") maxNodeValid ctx.now
      .ok (node, ctx.cacheInsert [] node)
    | some ta =>
      if ta.owner = name then
        trustAnchor E ta ctx >>= fun (node, ctx) => .ok (node, ctx.cacheInsert name node)
      else
        match name with
        | [] => .panic
        | _ :: parent =>
          findClosestNode E ta [name] parent ctx >>= fun ((node, names), ctx) =>
            getNodeLoop E node node names ctx

namespace TestZone

def anchors : TrustAnchors := TrustAnchors.ofList [⟨ex, [keyRr ex]⟩, ⟨five, [keyRr five]⟩]

end TestZone

open TestZone in
/-- After `a.ex` was cached as a secure intermediate node, the walk for `b.a.ex`
starts there and hands that intermediate node to `create_child_node` as the
signer. -/
theorem getNode_signer_intermediate :
    ∃ inter ctx1, getNode env anchors aEx ctx0 = .ok (inter, ctx1) ∧ inter.intermediate = true ∧
      getNode env anchors bAEx ctx1 =
        (createChildNode env bAEx inter ctx1 >>= fun (child, ctx) =>
          .ok (child, ctx.cacheInsert bAEx child)) :=
  ⟨_, _, rfl, rfl, rfl⟩

open TestZone in
/-- A supported DS at `c.ex` validates, but the child's DNSKEY reply has no
DNSKEY RRset: `get_node` reaches the `expect` on that RRset. -/
theorem getNode_panics_without_dnskey : getNode env anchors cEx ctx0 = .panic := rfl

open TestZone in
/-- The anchor `five` has no DNSKEY RRset, so the walk for `six.five` returns the
bogus anchor node, cached under `five` only; asking again rebuilds the anchor
node and sends its DNSKEY query a second time. -/
theorem getNode_repeat_requeries_anchor :
    ∃ n ctx1 ctx2, getNode env anchors sixFive ctx0 = .ok (n, ctx1) ∧
      getNode env anchors sixFive ctx1 = .ok (n, ctx2) ∧ n.state = .bogus ∧
      ctx2.now = ctx1.now ∧ ctx2.queries = ctx1.queries ++ [(five, Rtype.dnskey)] :=
  ⟨_, _, _, rfl, rfl, rfl, rfl, rfl⟩

namespace TestZone

/-- The test zone with every signature at its expiration time and every reply
taking one tick. -/
def slowEnv : Env :=
  { env with ttlForSig := fun _ _ => 0, upstream := fun _ name rtype => (some (reply name rtype), 1) }

end TestZone

open TestZone in
/-- The anchor node of `ex` is built after its DNSKEY reply, at tick 1, valid for
0 ticks. The walk to `a.ex` reads its remaining time after the DS query, at tick
2: the subtraction in `Node::ttl` underflows and `get_node` panics. -/
theorem getNode_parent_ttl_underflows :
    ∃ n ctx1, trustAnchor slowEnv ⟨ex, [keyRr ex]⟩ ctx0 = .ok (n, ctx1) ∧ n.createdAt = 1 ∧
      n.validFor = 0 ∧ n.ttl 2 = .panic ∧ getNode slowEnv anchors aEx ctx0 = .panic :=
  ⟨_, _, rfl, rfl, rfl, rfl, rfl⟩

end Domain.Validator
