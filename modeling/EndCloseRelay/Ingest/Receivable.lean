import EndCloseRelay.Engine.Resolution

/-!
# Routes that can receive a webhook

Whether any request at all passes the verification of an accepted route.  The
schema, the source check and the adapters each see a part of what that takes;
`receivable_iff` puts the parts together.
-/

namespace EndCloseRelay

open Js

/-! ## What the platform documents -/

/-- A character of a digest in `'hex'`. -/
def isHexDigit (c : Char) : Bool := isDigit c || ('a' ≤ c && c ≤ 'f')

/-- What is documented of the platform: `digest('hex')` is a text of lower-case
hexadecimal digits, which `toLowerCase` leaves as it is, and `Number('0')` is 0. -/
structure IngestRuntime.Documented (rt : IngestRuntime) : Prop where
  digestSome : ∀ algorithm secret content, rt.hmacHex algorithm secret content ≠ ""
  digestHex : ∀ algorithm secret content,
    ∀ c ∈ (rt.hmacHex algorithm secret content).toList, isHexDigit c
  lowerHex : ∀ text : String, (∀ c ∈ text.toList, isHexDigit c) → rt.toLowerCase text = text
  zero : rt.number "0" = some 0

/-! ## What verification takes -/

/-- The digest a signature header presents. -/
def presentedHex (rt : Runtime) (presented : String) : String :=
  rt.toLowerCase
    (if '=' ∈ presented.toList && !GenericHmac.isHexText presented then afterFirst presented '='
      else presented)

section

variable {rt : IngestRuntime} {req : RawRequest} {route : RouteConfig} {secret : String} {now : Int}

/-- A header that is read as a text was sent. -/
theorem sent_of_headerValue {rt : Runtime} {headers : List (String × HeaderValue)} {name value : String}
    (read : headerValue rt headers name = some (.text value)) :
    rt.toLowerCase name ∈ headers.map Prod.fst := by
  unfold headerValue at read
  rw [← lookup_isSome_iff]
  cases found : headers.lookup (rt.toLowerCase name) with
  | some _ => rfl
  | none =>
    simp only [found] at read
    cases inherited : Json.prototypeMember (rt.toLowerCase name) with
    | none =>
      rw [inherited] at read
      cases read
    | some _ =>
      rw [inherited] at read
      cases read

theorem headerValue_of_lookup {rt : Runtime} {headers : List (String × HeaderValue)}
    {name value : String} (there : headers.lookup (rt.toLowerCase name) = some (.text value)) :
    headerValue rt headers name = some (.text value) := by
  unfold headerValue
  simp only [there]

/-- Payabli's requests pass with the secret in the header, from an allowed address. -/
theorem payabli_verify_ok_iff {rt : Runtime} : Payabli.verify rt req route (.text secret) = .ok (.ok ()) ↔
    ∃ auth, route.auth = .staticHeader auth ∧ (auth.allowedIps = [] ∨ req.remoteIp ∈ auth.allowedIps) ∧
      headerValue rt req.headers auth.header = some (.text secret) ∧ secret ≠ "" := by
  unfold Payabli.verify
  cases mode : route.auth with
  | hmac auth =>
    constructor
    · intro ok
      cases ok
    · rintro ⟨other, same, -⟩
      cases same
  | staticHeader auth =>
    have refused : (!auth.allowedIps.isEmpty && !auth.allowedIps.contains req.remoteIp) = true ↔
        ¬ (auth.allowedIps = [] ∨ req.remoteIp ∈ auth.allowedIps) := by
      simp
    simp only
    by_cases allowed : auth.allowedIps = [] ∨ req.remoteIp ∈ auth.allowedIps
    · rw [if_neg fun closed => refused.mp closed allowed]
      constructor
      · intro ok
        split at ok
        · cases ok
        · cases ok
        · cases ok
        · rename_i presented some_ read
          split at ok
          · rename_i same
            obtain rfl := utf8_injective same
            exact ⟨auth, rfl, allowed, read, some_⟩
          · cases ok
      · rintro ⟨other, same, -, read, some_⟩
        obtain rfl := RouteAuth.staticHeader.inj same
        rw [read]
        split
        · rename_i none_
          cases none_
        · rename_i none_
          cases none_
        · rename_i empty
          cases empty
          exact absurd rfl some_
        · rename_i presented _ again
          obtain rfl := HeaderRead.text.inj (Option.some.inj again)
          rw [if_pos rfl]
    · rw [if_pos (refused.mpr allowed)]
      constructor
      · intro ok
        cases ok
      · rintro ⟨other, same, open_, -⟩
        obtain rfl := RouteAuth.staticHeader.inj same
        exact absurd open_ allowed

/-- What a signature covers: the body, or a fresh timestamp and the body. -/
theorem signedContent_ok_iff {auth : GenericHmacAuth} {content : Bytes} :
    GenericHmac.signedContent rt now req auth = .ok content ↔
      (auth.signedContent = .body ∧ content = req.body) ∨
      (auth.signedContent = .timestampBody ∧ ∃ header ts seconds,
        auth.timestampHeader = some header ∧ header ≠ "" ∧
        headerValue rt.toRuntime req.headers header = some (.text ts) ∧ ts ≠ "" ∧
        rt.number ts = some seconds ∧ |(now : ℚ) / 1000 - seconds| ≤ auth.toleranceSeconds ∧
        content = utf8 (ts ++ ".") ++ req.body) := by
  unfold GenericHmac.signedContent
  cases signed : auth.signedContent with
  | body =>
    constructor
    · intro ok
      exact .inl ⟨rfl, (Except.ok.inj ok).symm⟩
    · rintro (⟨-, rfl⟩ | ⟨other, -⟩)
      · rfl
      · cases other
  | timestampBody =>
    constructor
    · intro ok
      simp only at ok
      split at ok
      · cases ok
      · cases ok
      · rename_i header named configured
        split at ok
        · cases ok
        · cases ok
        · cases ok
        · rename_i ts some_ read
          split at ok
          · cases ok
          · rename_i seconds number
            split at ok
            · cases ok
            · rename_i fresh
              exact .inr ⟨rfl, header, ts, seconds, configured, named, read, some_, number,
                not_lt.mp fresh, (Except.ok.inj ok).symm⟩
    · rintro (⟨other, -⟩ | ⟨-, header, ts, seconds, configured, named, read, some_, number, fresh, rfl⟩)
      · cases other
      · simp [configured, read, number, not_lt.mpr fresh]

/-- A signed request passes with the digest of what it signs in the header. -/
theorem genericHmac_verify_ok_iff : GenericHmac.verify rt now req route (.text secret) = .ok (.ok ()) ↔
    ∃ auth content presented, route.auth = .hmac auth ∧
      GenericHmac.signedContent rt now req auth = .ok content ∧
      headerValue rt.toRuntime req.headers auth.header = some (.text presented) ∧ presented ≠ "" ∧
      rt.hmacHex auth.algorithm secret content = presentedHex rt.toRuntime presented := by
  unfold GenericHmac.verify
  cases mode : route.auth with
  | staticHeader auth =>
    constructor
    · intro ok
      cases ok
    · rintro ⟨other, -, -, same, -⟩
      cases same
  | hmac auth =>
    simp only
    constructor
    · intro ok
      split at ok
      · cases ok
      · rename_i content signed
        split at ok
        · cases ok
        · cases ok
        · cases ok
        · cases ok
        · rename_i presented secret' some_ read same
          obtain rfl := Secret.text.inj same
          refine ⟨auth, content, presented, rfl, signed, read, some_, ?_⟩
          by_contra differ
          cases ok.symm.trans (if_neg fun same => differ (utf8_injective same))
    · rintro ⟨other, content, presented, same, signed, read, some_, digest⟩
      obtain rfl := RouteAuth.hmac.inj same
      have accepted : (if utf8 (rt.hmacHex auth.algorithm secret content) =
            utf8 (presentedHex rt.toRuntime presented) then (.ok (.ok ()) : Except RelayError VerifyResult)
          else .ok (.error "bad signature")) = .ok (.ok ()) :=
        if_pos (congrArg utf8 digest)
      unfold presentedHex at accepted
      simpa [signed, read, some_] using accepted

end

/-- A digest in a header is presented as it is. -/
theorem presentedHex_hmacHex {rt : IngestRuntime} (documented : rt.Documented) (algorithm : HmacAlgorithm)
    (secret : String) (content : Bytes) :
    presentedHex rt.toRuntime (rt.hmacHex algorithm secret content) =
      rt.hmacHex algorithm secret content := by
  have digits := documented.digestHex algorithm secret content
  have bare : '=' ∉ (rt.hmacHex algorithm secret content).toList := by
    intro member
    exact absurd (digits _ member) (by decide)
  unfold presentedHex
  rw [decide_eq_false bare, Bool.false_and, if_neg Bool.false_ne_true]
  exact documented.lowerHex _ digits

/-- Some time of the clock is as close to a timestamp as any tolerance asks. -/
theorem exists_fresh (seconds : ℚ) {tolerance : Nat} (positive : 0 < tolerance) :
    ∃ now : Int, |(now : ℚ) / 1000 - seconds| ≤ tolerance := by
  refine ⟨⌊1000 * seconds⌋, ?_⟩
  have below := Int.floor_le (1000 * seconds)
  have above := Int.lt_floor_add_one (1000 * seconds)
  have one_le : (1 : ℚ) ≤ tolerance := by exact_mod_cast positive
  rw [abs_le]
  constructor
  · linarith
  · linarith

/-! ## Accepted routes -/

/-- Some request with this body passes the verification of the route's adapter,
its header names among those that a request can carry. -/
def Receivable (rt : IngestRuntime) (names : String → Prop) (route : RouteConfig) (secret : String)
    (body : Bytes) : Prop :=
  ∃ headers remoteIp now adapter, (∀ entry ∈ headers, names entry.1) ∧
    findAdapter rt none route.source = some adapter ∧
    adapter.verify now ⟨some body, headers, remoteIp⟩ route (.text secret) = .ok (.ok ())

/-- The combinations of source, auth mode and headers that some request satisfies.  Where
one header is both timestamp and signature, a timestamp has to be its own digest. -/
inductive Live (rt : IngestRuntime) (names : String → Prop) (route : RouteConfig) : Prop
  | static (auth : PayabliAuth) (source : route.source = "payabli")
    (mode : route.auth = .staticHeader auth) (name : names (rt.toLowerCase auth.header))
  | body (auth : GenericHmacAuth) (source : route.source = "generic_hmac") (mode : route.auth = .hmac auth)
    (signed : auth.signedContent = .body) (name : names (rt.toLowerCase auth.header))
  | stamped (auth : GenericHmacAuth) (header : String) (source : route.source = "generic_hmac")
    (mode : route.auth = .hmac auth) (signed : auth.signedContent = .timestampBody)
    (configured : auth.timestampHeader = some header) (named : header ≠ "")
    (name : names (rt.toLowerCase auth.header)) (stamp : names (rt.toLowerCase header))
    (apart : rt.toLowerCase header ≠ rt.toLowerCase auth.header)
  | shared (auth : GenericHmacAuth) (header : String) (source : route.source = "generic_hmac")
    (mode : route.auth = .hmac auth) (signed : auth.signedContent = .timestampBody)
    (configured : auth.timestampHeader = some header) (named : header ≠ "")
    (name : names (rt.toLowerCase auth.header))
    (same : rt.toLowerCase header = rt.toLowerCase auth.header)
    (fixed : ∀ secret body, secret ≠ "" → body ≠ [] → ∃ ts seconds,
      ts ≠ "" ∧ rt.number ts = some seconds ∧
      rt.hmacHex auth.algorithm secret (utf8 (ts ++ ".") ++ body) = presentedHex rt.toRuntime ts)

/-- Without adapters of the host's, an accepted source is built in or the constructor. -/
theorem source_of_parseRoutes {doc : Json} {routes : List RouteConfig}
    (parsed : parseRoutes doc {} = .ok routes) : ∀ route ∈ routes,
    route.source = "payabli" ∨ route.source = "generic_hmac" ∨ route.source = "constructor" := by
  intro route member
  have passes := known_of_assertKnownSources (checks_of_parseRoutes parsed).2.2.1 route member
  have valid := valid_of_parseRoutes parsed route member
  unfold RouteConfig.schemaValid at valid
  simp only [Bool.and_eq_true] at valid
  by_cases inherited : Json.prototypeMember route.source = none
  · unfold hasAdapter at passes
    simp only [inherited, Option.isSome_none, Bool.or_false, Option.any_none, Bool.false_or,
      decide_eq_true_iff, List.mem_cons, List.not_mem_nil, or_false] at passes
    exact passes.imp_right .inl
  · exact .inr (.inr (constructor_of_slug valid.1.1.1.1.1.2 inherited))

section

variable {rt : IngestRuntime} {names : String → Prop} {route : RouteConfig}

theorem receivable_of_live (documented : rt.Documented) (valid : route.auth.schemaValid)
    (live : Live rt names route) {secret : String} {body : Bytes} (set : secret ≠ "")
    (some_ : body ≠ []) : Receivable rt names route secret body := by
  -- what a header holds is read back, whatever else is sent before it
  have reads : ∀ (name value : String), headerValue rt.toRuntime [(rt.toLowerCase name, .text value)] name =
      some (.text value) :=
    fun name value => headerValue_of_lookup (List.lookup_cons_self ..)
  cases live with
  | static auth source mode name =>
    refine ⟨[(rt.toLowerCase auth.header, .text secret)], auth.allowedIps.headD "", 0,
      Payabli.adapter rt.toRuntime, List.forall_mem_singleton.mpr name, by rw [source]; rfl,
      payabli_verify_ok_iff.mpr ⟨auth, mode, ?_, reads auth.header secret, set⟩⟩
    cases auth.allowedIps with
    | nil => exact .inl rfl
    | cons ip ips => exact .inr List.mem_cons_self
  | body auth source mode signed name =>
    have digest := presentedHex_hmacHex documented auth.algorithm secret body
    exact ⟨[(rt.toLowerCase auth.header, .text (rt.hmacHex auth.algorithm secret body))], "", 0,
      GenericHmac.adapter rt, List.forall_mem_singleton.mpr name, by rw [source]; rfl,
      genericHmac_verify_ok_iff.mpr ⟨auth, body, _, mode, signedContent_ok_iff.mpr (.inl ⟨signed, rfl⟩),
        reads auth.header _, documented.digestSome _ _ _, digest.symm⟩⟩
  | stamped auth header source mode signed configured named name stamp apart =>
    have digest := presentedHex_hmacHex documented auth.algorithm secret (utf8 ("0" ++ ".") ++ body)
    refine ⟨[(rt.toLowerCase header, .text "0"),
        (rt.toLowerCase auth.header, .text (rt.hmacHex auth.algorithm secret (utf8 ("0" ++ ".") ++ body)))],
      "", 0, GenericHmac.adapter rt, List.forall_mem_cons.mpr ⟨stamp, List.forall_mem_singleton.mpr name⟩,
      by rw [source]; rfl,
      genericHmac_verify_ok_iff.mpr ⟨auth, _, _, mode, signedContent_ok_iff.mpr (.inr ⟨signed, header, "0", 0,
        configured, named, headerValue_of_lookup (List.lookup_cons_self ..), by decide, documented.zero,
        ?_, rfl⟩), headerValue_of_lookup ?_, documented.digestSome _ _ _, digest.symm⟩⟩
    · simp
    · rw [List.lookup_cons, beq_false_of_ne apart.symm]
      exact List.lookup_cons_self ..
  | shared auth header source mode signed configured named name same fixed =>
    obtain ⟨ts, seconds, sent, number, digest⟩ := fixed secret body set some_
    have positive : 0 < auth.toleranceSeconds := by
      rw [mode] at valid
      unfold RouteAuth.schemaValid at valid
      simp only [Bool.and_eq_true, decide_eq_true_iff] at valid
      exact valid.1.1.2
    obtain ⟨now, fresh⟩ := exists_fresh seconds positive
    have read := reads auth.header ts
    have stamp : headerValue rt.toRuntime [(rt.toLowerCase auth.header, .text ts)] header =
        some (.text ts) :=
      same ▸ reads header ts
    exact ⟨[(rt.toLowerCase auth.header, .text ts)], "", now, GenericHmac.adapter rt,
      List.forall_mem_singleton.mpr name, by rw [source]; rfl,
      genericHmac_verify_ok_iff.mpr ⟨auth, _, ts, mode, signedContent_ok_iff.mpr (.inr ⟨signed,
        header, ts, seconds, configured, named, stamp, sent, number, fresh, rfl⟩), read, sent, digest⟩⟩

/-- A name that is read as a text is one of those a request can carry. -/
theorem name_of_headerValue {headers : List (String × HeaderValue)} {name value : String}
    (carried : ∀ entry ∈ headers, names entry.1)
    (read : headerValue rt.toRuntime headers name = some (.text value)) : names (rt.toLowerCase name) := by
  obtain ⟨entry, sent, same⟩ := List.mem_map.mp (sent_of_headerValue read)
  exact same ▸ carried entry sent

theorem live_of_receivable (source : route.source = "payabli" ∨ route.source = "generic_hmac" ∨
      route.source = "constructor")
    (all : ∀ secret body, secret ≠ "" → body ≠ [] → Receivable rt names route secret body) :
    Live rt names route := by
  obtain ⟨headers, remoteIp, now, adapter, carried, found, ok⟩ := all "s" [0] (by decide) (by decide)
  rcases source with source | source | source
  · rw [source] at found
    obtain rfl := Option.some.inj found
    obtain ⟨auth, mode, -, read, -⟩ := payabli_verify_ok_iff.mp ok
    exact .static auth source mode (name_of_headerValue carried read)
  · rw [source] at found
    obtain rfl := Option.some.inj found
    obtain ⟨auth, content, presented, mode, signed, read, -, -⟩ := genericHmac_verify_ok_iff.mp ok
    have name := name_of_headerValue carried read
    rcases signedContent_ok_iff.mp signed with ⟨body, -⟩ |
      ⟨stamped, header, ts, seconds, configured, named, stamp, -⟩
    · exact .body auth source mode body name
    · by_cases same : rt.toLowerCase header = rt.toLowerCase auth.header
      · refine .shared auth header source mode stamped configured named name same ?_
        intro secret body set some_
        obtain ⟨headers, remoteIp, now, adapter, -, found, ok⟩ := all secret body set some_
        rw [source] at found
        obtain rfl := Option.some.inj found
        obtain ⟨again, content, presented, mode', signed, read, -, digest⟩ :=
          genericHmac_verify_ok_iff.mp ok
        obtain rfl := RouteAuth.hmac.inj (mode.symm.trans mode')
        rcases signedContent_ok_iff.mp signed with ⟨body, -⟩ |
          ⟨-, header', ts, seconds, configured', -, stamp, sent, number, -, rfl⟩
        · cases stamped.symm.trans body
        · obtain rfl := Option.some.inj (configured.symm.trans configured')
          -- both reads are of one header
          have one : headerValue rt.toRuntime headers header =
              headerValue rt.toRuntime headers auth.header := by
            unfold headerValue
            rw [same]
          obtain rfl := HeaderRead.text.inj (Option.some.inj (stamp.symm.trans (one.trans read)))
          exact ⟨ts, seconds, sent, number, digest⟩
      · exact .stamped auth header source mode stamped configured named name
          (name_of_headerValue carried stamp) same
  · rw [source] at found
    obtain rfl := Option.some.inj found
    cases ok

end

/-- An accepted route can receive webhooks exactly when its auth block is the one its
source's adapter reads, and `timestamp.body` comes with a header for the timestamp. -/
theorem receivable_iff {rt : IngestRuntime} (documented : rt.Documented) (names : String → Prop)
    {doc : Json} {routes : List RouteConfig} (parsed : parseRoutes doc {} = .ok routes) :
    ∀ route ∈ routes, (∀ secret body, secret ≠ "" → body ≠ [] → Receivable rt names route secret body) ↔
      Live rt names route := by
  intro route member
  have valid := valid_of_parseRoutes parsed route member
  unfold RouteConfig.schemaValid at valid
  simp only [Bool.and_eq_true] at valid
  constructor
  · exact live_of_receivable (source_of_parseRoutes parsed route member)
  · intro live secret body set some_
    exact receivable_of_live documented valid.1.1.1.1.2 live set some_

/-- `IngestRuntime.knowing`, with digests and numbers as they are documented. -/
def IngestRuntime.digesting : IngestRuntime where
  toRuntime := Runtime.knowing []
  hmacHex _ _ content := String.ofList ('0' :: content.map fun b => Nat.digitChar (b.toNat % 16))
  number text := if text = "0" then some 0 else none

theorem IngestRuntime.digesting_documented : IngestRuntime.digesting.Documented where
  digestSome _ _ content := by
    intro empty
    cases String.ofList_eq_empty_iff.mp empty
  digestHex _ _ content := by
    have digits : ∀ n < 16, isHexDigit (Nat.digitChar n) := by decide
    intro c member
    rw [IngestRuntime.digesting, String.toList_ofList] at member
    rcases List.mem_cons.mp member with rfl | behind
    · rfl
    · obtain ⟨b, -, rfl⟩ := List.mem_map.mp behind
      exact digits _ (Nat.mod_lt _ (by decide))
  lowerHex text digits := by
    have lower : ∀ c ∈ text.toList, (if isUpperAscii c then Char.ofNat (c.toNat + 32) else c) = c := by
      intro c member
      refine if_neg fun upper => ?_
      have hex := digits c member
      simp [isHexDigit, isDigit, isUpperAscii, Char.le_def, UInt32.le_iff_toNat_le] at hex upper
      omega
    show String.ofList (text.toList.map _) = text
    rw [List.map_congr_left lower, List.map_id', String.ofList_toList]
  zero := rfl

/-- Both routes of a document can receive webhooks: that of payabli, and one that signs
its requests with their time. -/
theorem receivable_iff_mixed : ∃ routes,
    parseRoutes (mixedDocument "generic_hmac" (.str "memo")) {} = .ok routes ∧
      ∀ route ∈ routes, ∀ secret body, secret ≠ "" → body ≠ [] →
        Receivable .digesting (fun _ => True) route secret body := by
  obtain ⟨routes, parsed, live⟩ : ∃ routes,
      parseRoutes (mixedDocument "generic_hmac" (.str "memo")) {} = .ok routes ∧
        ∀ route ∈ routes, Live .digesting (fun _ => True) route := by
    refine ⟨_, rfl, fun route member => ?_⟩
    rw [List.mem_reverse] at member
    rcases List.mem_cons.mp member with rfl | member
    · exact .stamped _ "x-time" rfl rfl rfl rfl (by decide) trivial trivial (by decide)
    · obtain rfl := List.mem_singleton.mp member
      exact .static _ rfl rfl trivial
  exact ⟨routes, parsed, fun route member =>
    (receivable_iff IngestRuntime.digesting_documented (fun _ => True) parsed route member).mpr
      (live route member)⟩

/-- A document whose one route signs its timestamps and names no header for them. -/
def unstampedDocument : Json :=
  .obj [("routes", .arr [.obj [
    ("id", .str "payments"), ("source", .str "generic_hmac"),
    ("auth", .obj [("mode", .str "hmac"), ("header", .str "x-signature"),
      ("secret_env", .str "HMAC_SECRET"), ("signed_content", .str "timestamp.body")]),
    ("map", .obj [("data_stream_key", .str "payments"), ("external_id", .str "id"),
      ("amount", .str "amount"), ("direction", .str "credit")])]])]

/-- The document is accepted, and its route receives nothing. -/
theorem unstamped_route_dead : ∃ routes, ∃ route ∈ routes,
    parseRoutes unstampedDocument {} = .ok routes ∧
    ∀ body, ¬ Receivable .digesting (fun _ => True) route "s3cret" body := by
  refine ⟨_, _, List.mem_singleton.mpr rfl, rfl, ?_⟩
  rintro body ⟨headers, remoteIp, now, adapter, -, found, ok⟩
  obtain rfl := Option.some.inj found
  cases ok

end EndCloseRelay
