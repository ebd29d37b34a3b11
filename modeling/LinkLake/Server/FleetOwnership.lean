import LinkLake.Foundations.PercentEncoding
import LinkLake.Foundations.Splitting
import LinkLake.Server.TrafficControl.UsageTables

/-!
# The Fleet ownership guard

Policies that a Fleet source owns are changed by the source's bundles only. A middleware in front
of the management API (`enforceFleetOwnership`) reads the policy that a request changes off the
request path (`fleetMutationTarget`) and refuses the request if the policy is owned.

The router reads the path a second time: it compares the raw segments with the patterns of its
routes and percent-decodes what it captured (`dispatch`), and the handlers parse the decoded texts
(`Handler.target`). The guard parses the raw segments. Where a request changes a policy, the two
agree exactly if the path has no escape (`fleetMutationTarget_eq_iff`): an identifier with an escape
slips through (`escapedId_slips_through`).
-/

namespace LinkLake.FleetOwnership

open TrafficControl (TrafficPolicyKind)

/-! ## Requests and routes -/

inductive Method
  | get
  | head
  | post
  | put
  | delete
  | options
  | patch
  | trace
  | connect
  | extension (name : List Char)
  deriving DecidableEq

inductive FleetPolicyKind
  | tcp
  | udp
  | portGroup
  | httpRoute
  | sniRoute
  | secretTunnel
  | socks5Proxy
  | httpProxy
  deriving DecidableEq

/-- The handlers of the policy routes, those of the eight kinds as one family. -/
inductive Handler
  | list (kind : FleetPolicyKind)
  | create (kind : FleetPolicyKind)
  | update (kind : FleetPolicyKind)
  | delete (kind : FleetPolicyKind)
  | setEnabled (kind : FleetPolicyKind)
  | getTrafficControl
  | upsertTrafficControl
  | deleteTrafficControl
  | setHttpRouteTls
  | issueHttpRouteCertificate
  | renewHttpRouteCertificate
  deriving DecidableEq

inductive Segment
  | literal (text : String)
  | param

structure Route where
  pattern : List Segment
  methods : List (Method × Handler)

/-- The routes of one kind of policies. -/
def policyRoutes (collection : String) (kind : FleetPolicyKind) : List Route :=
  let base : List Segment := [.literal "api", .literal "v1", .literal collection]
  [⟨base, [(.get, .list kind), (.post, .create kind)]⟩,
    ⟨base ++ [.param], [(.delete, .delete kind), (.put, .update kind)]⟩,
    ⟨base ++ [.param, .literal "enabled"], [(.post, .setEnabled kind)]⟩]

def trafficControlRoute : Route where
  pattern := [.literal "api", .literal "v1", .literal "traffic-controls", .param, .param]
  methods := [(.get, .getTrafficControl), (.put, .upsertTrafficControl),
    (.delete, .deleteTrafficControl)]

/-- The routes of a certificate of an HTTP route. -/
def certificateRoutes : List Route :=
  let base : List Segment := [.literal "api", .literal "v1", .literal "http-routes", .param]
  [⟨base ++ [.literal "tls"], [(.put, .setHttpRouteTls)]⟩,
    ⟨base ++ [.literal "certificate", .literal "issue"], [(.post, .issueHttpRouteCertificate)]⟩,
    ⟨base ++ [.literal "certificate", .literal "renew"], [(.post, .renewHttpRouteCertificate)]⟩]

def routes : List Route :=
  trafficControlRoute :: policyRoutes "tcp-tunnels" .tcp ++ policyRoutes "udp-tunnels" .udp
    ++ policyRoutes "port-groups" .portGroup ++ policyRoutes "http-routes" .httpRoute
    ++ policyRoutes "sni-routes" .sniRoute ++ certificateRoutes
    ++ policyRoutes "secret-tunnels" .secretTunnel ++ policyRoutes "socks5-proxies" .socks5Proxy
    ++ policyRoutes "http-proxies" .httpProxy

/-- The raw segments that a pattern captures. A parameter is not empty. -/
def capture : List Segment → List (List Char) → Option (List (List Char))
  | [], [] => some []
  | .literal text :: pattern, s :: segments =>
    if s = text.toList then capture pattern segments else none
  | .param :: pattern, s :: segments =>
    if s = [] then none else (capture pattern segments).map (s :: ·)
  | _, _ => none

/-- The route of a path, and what its pattern captures. -/
def matchRoute : List Char → Option (Route × List (List Char))
  | '/' :: rest => routes.findSome? fun route =>
    (capture route.pattern (rest.splitOn '/')).map (route, ·)
  | _ => none

/-- The handler that a request is dispatched to, with its decoded path parameters. -/
def dispatch (method : Method) (path : List Char) : Option (Handler × List (List Char)) := do
  let (route, captured) ← matchRoute path
  let handler ← route.methods.lookup method
  let params ← captured.mapM PercentEncoding.decode
  pure (handler, params)

/-! ## Handlers -/

/-- The `uuid` crate's `Uuid::parse_str`. It reads hexadecimal digits, which may be grouped by
hyphens and stand in braces or behind `urn:uuid:`, and so no text with a percent sign. -/
class UuidText where
  parseStr : List Char → Option Uuid
  parseStr_percent : ∀ s, '%' ∈ s → parseStr s = none

/-- The kind that a traffic-control handler reads. -/
def parseTrafficPolicyKind (value : List Char) : Option TrafficPolicyKind :=
  match String.ofList value with
  | "tcp" => some .tcp
  | "udp" => some .udp
  | "http" => some .http
  | "sni" => some .sni
  | "secret" => some .secret
  | "socks5" => some .socks5
  | "http_proxy" | "http-proxy" => some .httpProxy
  | "port_group" | "ports" => some .portGroup
  | _ => none

/-- The policies that the traffic controls of a kind belong to. -/
def fleetKind : TrafficPolicyKind → FleetPolicyKind
  | .tcp => .tcp
  | .udp => .udp
  | .http => .httpRoute
  | .sni => .sniRoute
  | .secret => .secretTunnel
  | .socks5 => .socks5Proxy
  | .httpProxy => .httpProxy
  | .portGroup => .portGroup

/-- The policy that a handler changes, from its decoded path parameters. -/
def Handler.target [UuidText] (handler : Handler) (params : List (List Char)) :
    Option (FleetPolicyKind × Uuid) :=
  match handler, params with
  | .update kind, [id] | .delete kind, [id] | .setEnabled kind, [id] =>
    (UuidText.parseStr id).map (kind, ·)
  | .upsertTrafficControl, [kind, id] | .deleteTrafficControl, [kind, id] => do
    let policyId ← UuidText.parseStr id
    let kind ← parseTrafficPolicyKind kind
    pure (fleetKind kind, policyId)
  | _, _ => none

/-- The policy that the handler of a request changes. -/
def changedPolicy [UuidText] (method : Method) (path : List Char) :
    Option (FleetPolicyKind × Uuid) := do
  let (handler, params) ← dispatch method path
  handler.target params

/-! ## The guard -/

def trimSlashes (path : List Char) : List Char :=
  (path.dropWhile (· == '/')).rdropWhile (· == '/')

/-- The kinds in the path of a traffic control. -/
def trafficControlKind (segment : List Char) : Option FleetPolicyKind :=
  match String.ofList segment with
  | "tcp" => some .tcp
  | "udp" => some .udp
  | "port_group" | "ports" => some .portGroup
  | "http" => some .httpRoute
  | "sni" => some .sniRoute
  | "secret" => some .secretTunnel
  | "socks5" => some .socks5Proxy
  | "http_proxy" | "http-proxy" => some .httpProxy
  | _ => none

/-- The kinds of the policy collections. -/
def collectionKind (segment : List Char) : Option FleetPolicyKind :=
  match String.ofList segment with
  | "tcp-tunnels" => some .tcp
  | "udp-tunnels" => some .udp
  | "port-groups" => some .portGroup
  | "http-routes" => some .httpRoute
  | "sni-routes" => some .sniRoute
  | "secret-tunnels" => some .secretTunnel
  | "socks5-proxies" => some .socks5Proxy
  | "http-proxies" => some .httpProxy
  | _ => none

/-- The policy that the guard takes a request to change. -/
def fleetMutationTarget [UuidText] (method : Method) (path : List Char) :
    Option (FleetPolicyKind × Uuid) :=
  let segments := (trimSlashes path).splitOn '/'
  if method ≠ .put ∧ method ≠ .delete ∧ method ≠ .post then none
  else if 5 ≤ segments.length ∧
      segments.take 3 = ["api".toList, "v1".toList, "traffic-controls".toList] ∧
      (method = .put ∨ method = .delete) then do
    let kind ← trafficControlKind (segments.getD 3 [])
    let policyId ← UuidText.parseStr (segments.getD 4 [])
    pure (kind, policyId)
  else if segments.length < 4 ∨ segments.take 2 ≠ ["api".toList, "v1".toList] then none
  else do
    let kind ← collectionKind (segments.getD 2 [])
    let directMutation := segments.length = 4 ∧ (method = .put ∨ method = .delete)
    let enableMutation :=
      segments.length = 5 ∧ segments.getD 4 [] = "enabled".toList ∧ method = .post
    if ¬ directMutation ∧ ¬ enableMutation then none
    else (UuidText.parseStr (segments.getD 3 [])).map (kind, ·)

structure CodedApiError where
  status : ℕ
  code : String
  message : String
  deriving DecidableEq

/-- The middleware: whether a request reaches the routes behind it. -/
def enforceFleetOwnership [UuidText]
    (isPolicyManaged : FleetPolicyKind → Uuid → Except String Bool) (method : Method)
    (path : List Char) : Except CodedApiError Unit :=
  match fleetMutationTarget method path with
  | none => .ok ()
  | some (kind, policyId) =>
    match isPolicyManaged kind policyId with
    | .ok false => .ok ()
    | .ok true => .error ⟨409, "fleet_managed_policy",
        "Fleet-managed policies must be changed by their owning source bundle"⟩
    | .error _ => .error ⟨500, "fleet_ownership_check_failed",
        "could not verify Fleet policy ownership"⟩

/-! ## Requests against a store -/

/-- What is stored about the policies, and which of them a Fleet source owns. -/
structure Store (Row : Type*) where
  row : FleetPolicyKind → Uuid → Option Row
  /-- The table `fleet_resource_ownership`. -/
  ownership : List (FleetPolicyKind × Uuid)

/-- A management request: `edit` is what its handler makes of the policy that it changes, and
`databaseError` is the answer of a query of the ownership table that fails. -/
structure Request (Row : Type*) where
  method : Method
  path : List Char
  edit : Option Row → Option Row
  databaseError : Option String

variable {Row : Type*} {c params segments : List (List Char)} {handler : Handler}
  {kind : FleetPolicyKind} {method : Method} {policyId : Uuid} {pattern : List Segment}
  {rest path : List Char} {route : Route}

def Store.isPolicyManaged (store : Store Row) (databaseError : Option String)
    (kind : FleetPolicyKind) (policyId : Uuid) : Except String Bool :=
  match databaseError with
  | some error => .error error
  | none => .ok (decide ((kind, policyId) ∈ store.ownership))

/-- A request goes through the guard and, if it passes, to its handler. The guard's lock is held
until the handler is done, so nothing happens in between. -/
def Store.serve [UuidText] (store : Store Row) (request : Request Row) : Store Row :=
  match enforceFleetOwnership (store.isPolicyManaged request.databaseError) request.method
      request.path, changedPolicy request.method request.path with
  | .ok (), some (kind, policyId) =>
    { store with
      row := Function.update store.row kind
        (Function.update (store.row kind) policyId (request.edit (store.row kind policyId))) }
  | _, _ => store

/-! ## The route of a request -/

theorem capture_literal {text : String} :
    capture (.literal text :: pattern) segments = some c ↔
      ∃ rest, segments = text.toList :: rest ∧ capture pattern rest = some c := by
  cases segments with
  | nil => simp [capture]
  | cons s rest => by_cases h : s = text.toList <;> simp [capture, h]

theorem capture_param : capture (.param :: pattern) segments = some c ↔
      ∃ s rest c', segments = s :: rest ∧ s ≠ [] ∧ capture pattern rest = some c' ∧
        c = s :: c' := by
  cases segments with
  | nil => simp [capture]
  | cons s rest =>
    by_cases h : s = []
    · simp [capture, h]
    · simp [capture, h, eq_comm]

theorem capture_nil : capture [] segments = some c ↔ segments = [] ∧ c = [] := by
  cases segments <;> simp [capture, eq_comm]

theorem mem_routes (h : route ∈ routes) :
    route = trafficControlRoute ∨ route ∈ certificateRoutes ∨
      ∃ collection kind, route ∈ policyRoutes collection kind ∧
        collectionKind collection.toList = some kind := by
  simp only [routes, List.mem_append, List.mem_cons, or_assoc] at h
  obtain h | h | h | h | h | h | h | h | h | h := h
  · exact .inl h
  · exact .inr (.inr ⟨_, _, h, by decide⟩)
  · exact .inr (.inr ⟨_, _, h, by decide⟩)
  · exact .inr (.inr ⟨_, _, h, by decide⟩)
  · exact .inr (.inr ⟨_, _, h, by decide⟩)
  · exact .inr (.inr ⟨_, _, h, by decide⟩)
  · exact .inr (.inl h)
  · exact .inr (.inr ⟨_, _, h, by decide⟩)
  · exact .inr (.inr ⟨_, _, h, by decide⟩)
  · exact .inr (.inr ⟨_, _, h, by decide⟩)

theorem mem_of_lookup {methods : List (Method × Handler)}
    (h : methods.lookup method = some handler) : (method, handler) ∈ methods := by
  obtain ⟨before, after, rfl, -⟩ := List.lookup_eq_some_iff.mp h
  simp

/-! ## The guard's segments -/

theorem trimSlashes_cons (h : ∀ s ∈ rest.splitOn '/', s ≠ []) :
    trimSlashes ('/' :: rest) = rest := by
  have hlast := Splitting.getLast?_ne_of_splitOn fun s hs => h s (List.mem_of_mem_tail hs)
  have hfirst : rest.dropWhile (· == '/') = rest := by
    cases rest with
    | nil => rfl
    | cons c rest =>
      have hc : c ≠ '/' := by
        rintro rfl
        exact h [] (by simp [List.splitOn_cons_eq_if_modifyHead]) rfl
      simp [hc]
  rw [trimSlashes, List.dropWhile_cons_of_pos (by simp), hfirst, List.rdropWhile_eq_self_iff]
  intro hne heq
  exact hlast (by rw [List.getLast?_eq_getLast_of_ne_nil hne, beq_iff_eq.mp heq])

theorem trafficControlKind_eq (segment : List Char) :
    trafficControlKind segment = (parseTrafficPolicyKind segment).map fleetKind := by
  unfold trafficControlKind parseTrafficPolicyKind
  generalize String.ofList segment = value
  split
  all_goals first
    | rfl
    | (split <;> simp_all)

theorem collectionKind_percent {segment : List Char} (h : collectionKind segment = some kind) :
    '%' ∉ segment := by
  unfold collectionKind at h
  rw [← String.toList_ofList (l := segment)]
  split at h
  all_goals first
    | (rename_i heq; rw [heq]; decide)
    | cases h

theorem trafficControlKind_percent {segment : List Char} (h : '%' ∈ segment) :
    trafficControlKind segment = none := by
  unfold trafficControlKind
  rw [← String.toList_ofList (l := segment)] at h
  split
  all_goals first
    | (rename_i heq; rw [heq] at h; exact absurd h (by decide))
    | rfl

theorem trafficControlKind_raw {raw text : List Char} {control : TrafficPolicyKind}
    (hdecode : PercentEncoding.decode raw = some text)
    (hcontrol : parseTrafficPolicyKind text = some control) :
    trafficControlKind raw = if '%' ∈ raw then none else some (fleetKind control) := by
  split_ifs with hraw
  · exact trafficControlKind_percent hraw
  · rw [PercentEncoding.decode_of_notMem hraw] at hdecode
    cases hdecode
    rw [trafficControlKind_eq, hcontrol, Option.map_some]

theorem percent_mem_iff : '%' ∈ rest ↔ ∃ s ∈ rest.splitOn '/', '%' ∈ s := by
  constructor
  · intro hmem
    exact (Splitting.mem_splitOn_or hmem).resolve_left (by decide)
  · rintro ⟨s, hs, hmem⟩
    exact (Splitting.mem_and_ne_of_mem_splitOn hs hmem).1

section Requests

variable [UuidText]

/-- The raw segments of a request that changes a policy. -/
inductive Changes (method : Method) (kind : FleetPolicyKind) (policyId : Uuid) :
    List (List Char) → Prop
  | direct {collection raw id : List Char} (hkind : collectionKind collection = some kind)
      (hmethod : method = .put ∨ method = .delete) (hraw : raw ≠ [])
      (hdecode : PercentEncoding.decode raw = some id)
      (hid : UuidText.parseStr id = some policyId) :
      Changes method kind policyId ["api".toList, "v1".toList, collection, raw]
  | enable {collection raw id : List Char} (hkind : collectionKind collection = some kind)
      (hmethod : method = .post) (hraw : raw ≠ [])
      (hdecode : PercentEncoding.decode raw = some id)
      (hid : UuidText.parseStr id = some policyId) :
      Changes method kind policyId
        ["api".toList, "v1".toList, collection, raw, "enabled".toList]
  | trafficControl {rawKind rawId kindText id : List Char} {control : TrafficPolicyKind}
      (hmethod : method = .put ∨ method = .delete) (hrawKind : rawKind ≠ []) (hrawId : rawId ≠ [])
      (hdecodeKind : PercentEncoding.decode rawKind = some kindText)
      (hdecodeId : PercentEncoding.decode rawId = some id)
      (hcontrol : parseTrafficPolicyKind kindText = some control) (hkind : fleetKind control = kind)
      (hid : UuidText.parseStr id = some policyId) :
      Changes method kind policyId
        ["api".toList, "v1".toList, "traffic-controls".toList, rawKind, rawId]

theorem Handler.target_eq_some (h : handler.target params = some (kind, policyId)) :
    (∃ id, params = [id] ∧ UuidText.parseStr id = some policyId ∧
      (handler = .update kind ∨ handler = .delete kind ∨ handler = .setEnabled kind)) ∨
    ∃ kindText id control, params = [kindText, id] ∧ UuidText.parseStr id = some policyId ∧
      parseTrafficPolicyKind kindText = some control ∧ fleetKind control = kind ∧
      (handler = .upsertTrafficControl ∨ handler = .deleteTrafficControl) := by
  unfold Handler.target at h
  split at h
  · obtain ⟨_, hid, heq⟩ := Option.map_eq_some_iff.mp h
    cases heq
    exact .inl ⟨_, rfl, hid, .inl rfl⟩
  · obtain ⟨_, hid, heq⟩ := Option.map_eq_some_iff.mp h
    cases heq
    exact .inl ⟨_, rfl, hid, .inr (.inl rfl)⟩
  · obtain ⟨_, hid, heq⟩ := Option.map_eq_some_iff.mp h
    cases heq
    exact .inl ⟨_, rfl, hid, .inr (.inr rfl)⟩
  · obtain ⟨_, hid, h⟩ := Option.bind_eq_some_iff.mp h
    obtain ⟨control, hcontrol, heq⟩ := Option.bind_eq_some_iff.mp h
    cases heq
    exact .inr ⟨_, _, control, rfl, hid, hcontrol, rfl, .inl rfl⟩
  · obtain ⟨_, hid, h⟩ := Option.bind_eq_some_iff.mp h
    obtain ⟨control, hcontrol, heq⟩ := Option.bind_eq_some_iff.mp h
    cases heq
    exact .inr ⟨_, _, control, rfl, hid, hcontrol, rfl, .inr rfl⟩
  · cases h

theorem Handler.target_single {raw : List Char}
    (hparams : [raw].mapM PercentEncoding.decode = some params)
    (h : handler.target params = some (kind, policyId)) :
    ∃ id, PercentEncoding.decode raw = some id ∧ UuidText.parseStr id = some policyId ∧
      (handler = .update kind ∨ handler = .delete kind ∨ handler = .setEnabled kind) := by
  simp only [List.mapM_cons, List.mapM_nil, Option.bind_eq_bind, Option.pure_def,
    Option.bind_eq_some_iff, Option.some.injEq] at hparams
  obtain ⟨id, hid, _, rfl, rfl⟩ := hparams
  obtain ⟨_, heq, hparse, hhandler⟩ | ⟨_, _, _, heq, -⟩ := Handler.target_eq_some h
  · cases heq
    exact ⟨id, hid, hparse, hhandler⟩
  · cases heq

theorem changes_of_route {captured : List (List Char)}
    (hroute : route ∈ routes) (hcapture : capture route.pattern segments = some captured)
    (hlookup : route.methods.lookup method = some handler)
    (hparams : captured.mapM PercentEncoding.decode = some params)
    (htarget : handler.target params = some (kind, policyId)) :
    Changes method kind policyId segments := by
  have hmem := mem_of_lookup hlookup
  rcases mem_routes hroute with rfl | hcertificate | ⟨collection, k, hpolicy, hk⟩
  · simp only [trafficControlRoute, capture_literal, capture_param, capture_nil] at hcapture
    obtain ⟨_, rfl, _, rfl, _, rfl, rawKind, _, _, rfl, hrawKind, ⟨rawId, _, _, rfl, hrawId,
      ⟨rfl, rfl⟩, rfl⟩, rfl⟩ := hcapture
    simp only [List.mapM_cons, List.mapM_nil, Option.bind_eq_bind, Option.pure_def,
      Option.bind_eq_some_iff, Option.some.injEq] at hparams
    obtain ⟨kindText, hkindText, _, ⟨id, hid, _, rfl, rfl⟩, rfl⟩ := hparams
    obtain ⟨_, heq, -⟩ | ⟨_, _, control, heq, hparse, hcontrol, hkind, hhandler⟩ :=
      Handler.target_eq_some htarget
    · cases heq
    · cases heq
      have hmethod : method = .put ∨ method = .delete := by
        rcases hhandler with rfl | rfl <;> simp_all [trafficControlRoute]
      exact .trafficControl hmethod hrawKind hrawId hkindText hid hcontrol hkind hparse
  · simp only [certificateRoutes, List.mem_cons, List.not_mem_nil, or_false] at hcertificate
    rcases hcertificate with rfl | rfl | rfl
    all_goals
      obtain ⟨rfl, rfl⟩ := by simpa using hmem
      simp [Handler.target] at htarget
  · simp only [policyRoutes, List.mem_cons, List.not_mem_nil, or_false] at hpolicy
    rcases hpolicy with rfl | rfl | rfl
    · rcases (by simpa using hmem : (method = .get ∧ handler = .list k) ∨
          (method = .post ∧ handler = .create k)) with ⟨-, rfl⟩ | ⟨-, rfl⟩
      all_goals simp [Handler.target] at htarget
    · simp only [List.cons_append, List.nil_append, capture_literal, capture_param,
        capture_nil] at hcapture
      obtain ⟨_, rfl, _, rfl, _, rfl, raw, _, _, rfl, hraw, ⟨rfl, rfl⟩, rfl⟩ := hcapture
      obtain ⟨id, hid, hparse, hhandler⟩ := Handler.target_single hparams htarget
      have hmethod : (method = .put ∨ method = .delete) ∧ k = kind := by
        rcases hhandler with rfl | rfl | rfl <;> simp_all
      exact .direct (hmethod.2 ▸ hk) hmethod.1 hraw hid hparse
    · simp only [List.cons_append, List.nil_append, capture_literal, capture_param,
        capture_nil] at hcapture
      obtain ⟨_, rfl, _, rfl, _, rfl, raw, _, _, rfl, hraw, ⟨_, rfl, rfl, rfl⟩, rfl⟩ := hcapture
      obtain ⟨id, hid, hparse, hhandler⟩ := Handler.target_single hparams htarget
      have hmethod : method = .post ∧ k = kind := by
        rcases hhandler with rfl | rfl | rfl <;> simp_all
      exact .enable (hmethod.2 ▸ hk) hmethod.1 hraw hid hparse

/-- **What the router lets through to a policy.** -/
theorem changes_of_changedPolicy (h : changedPolicy method path = some (kind, policyId)) :
    ∃ rest, path = '/' :: rest ∧ Changes method kind policyId (rest.splitOn '/') := by
  simp only [changedPolicy, dispatch, Option.bind_eq_bind, Option.bind_eq_some_iff, Option.pure_def,
    Option.some.injEq, Prod.exists, Prod.mk.injEq] at h
  obtain ⟨handler, params, ⟨route, captured, hmatch, _, hlookup, _, hparams, rfl, rfl⟩,
    htarget⟩ := h
  unfold matchRoute at hmatch
  split at hmatch
  · rename_i rest
    obtain ⟨r, hr, hcapture⟩ := List.exists_of_findSome?_eq_some hmatch
    obtain ⟨c, hc, hroute⟩ := Option.map_eq_some_iff.mp hcapture
    obtain ⟨rfl, rfl⟩ : r = route ∧ c = captured := by simpa using hroute
    exact ⟨rest, rfl, changes_of_route hr hc hlookup hparams htarget⟩
  · cases hmatch

theorem Changes.segments_ne_nil (h : Changes method kind policyId segments) :
    ∀ s ∈ segments, s ≠ [] := by
  have hcollection : ∀ {collection}, collectionKind collection = some kind → collection ≠ [] := by
    rintro _ h rfl
    exact absurd h (by simp [collectionKind])
  cases h with
  | direct hkind _ hraw => simp [hraw, hcollection hkind]
  | enable hkind _ hraw => simp [hraw, hcollection hkind]
  | trafficControl _ hrawKind hrawId => simp [hrawKind, hrawId]

theorem parseStr_raw {raw id : List Char} (hdecode : PercentEncoding.decode raw = some id)
    (hid : UuidText.parseStr id = some policyId) :
    UuidText.parseStr raw = if '%' ∈ raw then none else some policyId := by
  split_ifs with hraw
  · exact UuidText.parseStr_percent raw hraw
  · rw [PercentEncoding.decode_of_notMem hraw] at hdecode
    cases hdecode
    exact hid

theorem fleetMutationTarget_of_changes (h : Changes method kind policyId (rest.splitOn '/')) :
    fleetMutationTarget method ('/' :: rest) =
      if '%' ∈ rest then none else some (kind, policyId) := by
  have hpercent := @percent_mem_iff rest
  unfold fleetMutationTarget
  rw [trimSlashes_cons h.segments_ne_nil]
  generalize rest.splitOn '/' = segments at h hpercent
  cases h with
  | direct hkind hmethod hraw hdecode hid =>
    have hescaped := collectionKind_percent hkind
    have hread := parseStr_raw hdecode hid
    simp only [hescaped, List.mem_cons, List.not_mem_nil, exists_eq_or_imp] at hpercent
    rcases hmethod with rfl | rfl
    all_goals
      simp [hkind, hread, hpercent]
      split_ifs <;> rfl
  | enable hkind hmethod hraw hdecode hid =>
    have hescaped := collectionKind_percent hkind
    have hread := parseStr_raw hdecode hid
    simp only [hescaped, List.mem_cons, List.not_mem_nil, exists_eq_or_imp] at hpercent
    simp [hmethod, hkind, hread, hpercent]
    split_ifs <;> rfl
  | trafficControl hmethod _ _ hdecodeKind hdecodeId hcontrol hkind hid =>
    have hread := parseStr_raw hdecodeId hid
    have hreadKind := trafficControlKind_raw hdecodeKind hcontrol
    simp only [List.mem_cons, List.not_mem_nil, exists_eq_or_imp] at hpercent
    rcases hmethod with rfl | rfl
    all_goals
      simp [hreadKind, hkind, hread, hpercent]
      split_ifs <;> simp_all

/-- **Where a request changes a policy, the guard names it exactly if the path has no escape.** -/
theorem fleetMutationTarget_eq_iff (h : changedPolicy method path = some (kind, policyId)) :
    fleetMutationTarget method path = some (kind, policyId) ↔ '%' ∉ path := by
  obtain ⟨rest, rfl, hchanges⟩ := changes_of_changedPolicy h
  rw [fleetMutationTarget_of_changes hchanges]
  simp

/-! ## Owned policies -/

theorem Store.serve_row {store : Store Row} {request : Request Row}
    (h : (store.serve request).row kind policyId ≠ store.row kind policyId) :
    enforceFleetOwnership (store.isPolicyManaged request.databaseError) request.method request.path
        = .ok () ∧ changedPolicy request.method request.path = some (kind, policyId) := by
  unfold Store.serve at h
  split at h
  · rename_i k id hguard hchanged
    refine ⟨hguard, hchanged.trans ?_⟩
    by_cases hk : kind = k
    · subst hk
      by_cases hid : policyId = id
      · rw [hid]
      · exact absurd (by simp [hid]) h
    · exact absurd (by simp [hk]) h
  · exact absurd rfl h

/-- **The guard covers every route that changes a policy exactly where nothing is escaped.** It
names the policy that the handler changes if and only if the path has no percent sign, and then a
request leaves the policies that a Fleet source owns as they are. -/
theorem fleetGuard_covers (store : Store Row) (request : Request Row) :
    (∀ kind policyId, changedPolicy request.method request.path = some (kind, policyId) →
      (fleetMutationTarget request.method request.path = some (kind, policyId) ↔
        '%' ∉ request.path)) ∧
    ('%' ∉ request.path → ∀ kind policyId, (kind, policyId) ∈ store.ownership →
      (store.serve request).row kind policyId = store.row kind policyId) := by
  refine ⟨fun _ _ h => fleetMutationTarget_eq_iff h, fun hpath kind policyId howned => ?_⟩
  by_contra hrow
  obtain ⟨hguard, hchanged⟩ := Store.serve_row hrow
  rw [enforceFleetOwnership, (fleetMutationTarget_eq_iff hchanged).mpr hpath] at hguard
  cases herror : request.databaseError <;> simp [Store.isPolicyManaged, herror, howned] at hguard

end Requests

namespace Sample

/-- The text of the identifier 1. -/
def one : List Char := "00000000-0000-0000-0000-000000000001".toList

/-- A parser that knows one identifier. -/
scoped instance : UuidText where
  parseStr s := if s = one then some (Uuid.fromU128 1) else none
  parseStr_percent s hs := by
    rw [if_neg]
    rintro rfl
    exact absurd hs (by decide)

/-- The path of the TCP tunnel 1, with the first digit of the identifier escaped. -/
def escapedPath : List Char := "/api/v1/tcp-tunnels/%3".toList ++ one

/-- A store in which a Fleet source owns the TCP tunnel 1. -/
def ownedTunnel : Store ℕ where
  row kind policyId := if (kind, policyId) = (.tcp, Uuid.fromU128 1) then some 8080 else none
  ownership := [(.tcp, Uuid.fromU128 1)]

end Sample

open Sample

theorem escapedId_slips_through :
    changedPolicy .delete escapedPath = some (.tcp, Uuid.fromU128 1) ∧
      fleetMutationTarget .delete escapedPath = none ∧
      (.tcp, Uuid.fromU128 1) ∈ ownedTunnel.ownership ∧
      ownedTunnel.row .tcp (Uuid.fromU128 1) = some 8080 ∧
      (ownedTunnel.serve ⟨.delete, escapedPath, fun _ => none, none⟩).row .tcp (Uuid.fromU128 1)
        = none := by
  have hchanged : changedPolicy .delete escapedPath = some (.tcp, Uuid.fromU128 1) := by
    decide +kernel
  refine ⟨hchanged, by decide +kernel, by decide, by decide, ?_⟩
  decide +kernel

theorem fleetGuard_covers_plain :
    changedPolicy .delete ("/api/v1/tcp-tunnels/".toList ++ one) = some (.tcp, Uuid.fromU128 1) ∧
      (ownedTunnel.serve ⟨.delete, "/api/v1/tcp-tunnels/".toList ++ one, fun _ => none, none⟩).row
        .tcp (Uuid.fromU128 1) = some 8080 :=
  ⟨by decide +kernel,
    ((fleetGuard_covers ownedTunnel _).2 (by decide) _ _ (by decide)).trans (by decide)⟩

end LinkLake.FleetOwnership
