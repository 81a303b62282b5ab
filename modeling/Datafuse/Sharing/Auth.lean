import Datafuse.Basic
import Mathlib.Data.List.Basic

set_option autoImplicit false

/-! # The credentials middleware of the sharing endpoint

`middlewares.rs`: `SharingAuth`, the poem middleware the sharing endpoint runs its requests
through. It reads a token from the `Authorization` header, attaches it to the request as
`Credentials`, names JSON as the content type when the request names none, and calls the endpoint
it wraps.

* The token is the UTF-8 text of the base64 decoding of the second blank-separated word of the
  header. The first word, the scheme, is never looked at, and neither is anything after the second
  word (`call_bearer`).
* The endpoint receives the request it was sent with the credentials attached and, if it had no
  `Content-Type`, that header added; every other header, and the rest of the request, is as it was
  (`forward_headers_get`).
* A header the middleware cannot read makes one of its `unwrap`s panic, and the endpoint is not
  called. Past them, the middleware adds no outcome of its own: the endpoint's response or error is
  what it returns (`call_eq_bind`).
* Wrapping an endpoint in the middleware twice gives the endpoint wrapped once
  (`transform_transform`).

`base64::decode` and `String::from_utf8` are library functions; the model takes them as parameters
(`Codecs`). The two `println!` calls are left out: they write to the log and change neither the
request nor the result.
-/

namespace Datafuse

namespace Sharing

/-! ## Requests -/

/-- Lower-casing a character twice lower-cases it once. -/
theorem Char.toLower_toLower (c : Char) : c.toLower.toLower = c.toLower := by
  unfold Char.toLower
  by_cases h : c.toNat ≥ 65 ∧ c.toNat ≤ 90
  · have hv : (c.toNat + 32).isValidChar := Or.inl (by omega)
    have hn : (Char.ofNat (c.toNat + 32)).toNat = c.toNat + 32 := by
      rw [Char.ofNat, dif_pos hv]
      rfl
    rw [if_pos h, hn, if_neg (by omega)]
  · rw [if_neg h, if_neg h]

/-- A header name as `http::HeaderName` holds it: its characters, already in lower case, so that
two names that differ only in ASCII case are the same name. -/
structure HeaderName where
  chars : List Char
  lower : chars.map Char.toLower = chars
  deriving DecidableEq

/-- The conversion `HeaderMap::get` and `HeaderMap::insert` apply to a `&str` name. -/
def HeaderName.ofStr (s : String) : HeaderName :=
  ⟨s.data.map Char.toLower, by
    rw [List.map_map]
    exact List.map_congr_left fun c _ => Char.toLower_toLower c⟩

/-- An `http::HeaderMap`, as its entries in order. -/
abbrev HeaderMap := List (HeaderName × String)

/-- `HeaderMap::get`: the first value held under the name. -/
def HeaderMap.get (hs : HeaderMap) (name : HeaderName) : Option String := hs.lookup name

/-- `HeaderMap::insert`: the value replaces every value held under the name. Where in the map it
goes is not modelled; only `get` reads the map. -/
def HeaderMap.insert (hs : HeaderMap) (name : HeaderName) (value : String) : HeaderMap :=
  (name, value) :: hs.filter (·.1 != name)

/-- The characters `HeaderValue::to_str` accepts: a tab, or visible ASCII from the blank on. -/
def isVisibleAscii (c : Char) : Bool := c = '\t' || (32 ≤ c.toNat && c.toNat < 127)

/-- `HeaderValue::to_str`: the value as text, if every character of it is visible ASCII. -/
def HeaderValue.toStr (v : String) : Option String :=
  if v.data.all isVisibleAscii then some v else none

/-- `Credentials`, the request extension the middleware attaches. -/
structure Credentials where
  token : String
  deriving DecidableEq, Repr

/-- A `poem::Request` as the middleware sees it: its header map, the `Credentials` slot of its
extensions, and the rest (method, URI, body, other extensions), which it passes on as it is. -/
structure Request (β : Type) where
  headers : HeaderMap
  credentials : Option Credentials
  rest : β

/-- A poem endpoint: it panics (the error `ErrorCode.panic`), or answers with its output or with a
`poem::Error` of type `ε`. -/
abbrev Endpoint (β ε ρ : Type) := Request β → Result (Except ε ρ)

/-- The two library decoders the middleware calls: `base64::decode` and `String::from_utf8`. -/
structure Codecs where
  base64Decode : List Char → Option (List UInt8)
  fromUtf8 : List UInt8 → Option String

/-- `Option::unwrap`. -/
def unwrapOption {α : Type} : Option α → Result α
  | some a => .ok a
  | none => .error (.panic "called `Option::unwrap()` on a `None` value")

/-- `Result::unwrap`, on a library call modelled as an `Option`. -/
def unwrapResult {α : Type} : Option α → Result α
  | some a => .ok a
  | none => .error (.panic "called `Result::unwrap()` on an `Err` value")

/-- Indexing a `Vec`: out of range, the index panics. -/
def index {α : Type} (xs : List α) (i : Nat) : Result α :=
  match xs[i]? with
  | some a => .ok a
  | none => .error (.panic "index out of bounds")

section HeaderMap

variable (hs : HeaderMap) (name name' : HeaderName) (value : String)

theorem HeaderMap.get_filter_ne (h : name' ≠ name) :
    HeaderMap.get (hs.filter (·.1 != name)) name' = hs.get name' := by
  induction hs with
  | nil => rfl
  | cons e es ih =>
      obtain ⟨k, v⟩ := e
      simp only [HeaderMap.get] at ih ⊢
      by_cases hk : k = name
      · subst hk
        simp only [List.filter_cons, bne_self_eq_false, Bool.false_eq_true, if_false, ih,
          List.lookup_cons, beq_false_of_ne h]
      · simp [List.filter_cons, List.lookup_cons, ih, hk]

/-- **What an insertion changes**: the name inserted under, and nothing else. -/
theorem HeaderMap.get_insert :
    (hs.insert name value).get name' = if name' = name then some value else hs.get name' := by
  unfold HeaderMap.insert HeaderMap.get
  rw [List.lookup_cons]
  by_cases h : name' = name
  · rw [if_pos h, h, beq_self_eq_true]
  · rw [if_neg h, beq_false_of_ne h]
    exact get_filter_ne hs name name' h

end HeaderMap

/-! ## The middleware -/

section Middleware

variable (codecs : Codecs) {β ε ρ σ : Type}

/-- Lines 31 to 35 of `SharingAuthImpl::call`: the token the `Authorization` header carries, the
second of its blank-separated words, base64-decoded and read as UTF-8. -/
def authToken (req : Request β) : Result String := do
  let authHeader ← unwrapOption (req.headers.get (.ofStr "Authorization"))
  let authHeader ← unwrapResult (HeaderValue.toStr authHeader)
  let authHeader := authHeader.data.splitOn ' '
  let authHeader ← index authHeader 1
  let authHeader ← unwrapResult (codecs.base64Decode authHeader)
  unwrapResult (codecs.fromUtf8 authHeader)

/-- Lines 37 to 41 of `SharingAuthImpl::call`: the request the wrapped endpoint receives. The
header value `"application/json".parse().unwrap()` is a valid one, so that `unwrap` never panics. -/
def forward (token : String) (req : Request β) : Request β :=
  let req := { req with credentials := some ⟨token⟩ }
  if (req.headers.get (.ofStr "Content-Type")).isNone then
    { req with headers := req.headers.insert (.ofStr "Content-Type") "application/json" }
  else req

/-- `SharingAuthImpl::call`; `intoResponse` is `IntoResponse::into_response` on the wrapped
endpoint's output. -/
def SharingAuthImpl.call (intoResponse : ρ → σ) (ep : Endpoint β ε ρ) (req : Request β) :
    Result (Except ε σ) := do
  let token ← authToken codecs req
  let res ← ep (forward token req)
  match res with
  | .ok resp => return .ok (intoResponse resp)
  | .error err => return .error err

/-- `Middleware::transform` for `SharingAuth`: the endpoint wrapped in the middleware. -/
def SharingAuth.transform (intoResponse : ρ → σ) (ep : Endpoint β ε ρ) : Endpoint β ε σ :=
  SharingAuthImpl.call codecs intoResponse ep

/-- **The middleware in one line**: it reads the token, and then its outcome is the endpoint's
on the forwarded request. Whatever makes reading the token panic, the endpoint is not called. -/
theorem call_eq_bind (intoResponse : ρ → σ) (ep : Endpoint β ε ρ) (req : Request β) :
    SharingAuthImpl.call codecs intoResponse ep req =
      authToken codecs req >>= fun token => (ep (forward token req)).map (.map intoResponse) := by
  simp only [SharingAuthImpl.call]
  cases authToken codecs req with
  | error e => rfl
  | ok token =>
      rw [ok_bind, ok_bind]
      cases ep (forward token req) with
      | error e => rfl
      | ok res => cases res <;> rfl

/-! ## What the endpoint receives -/

section Forward

variable (token : String) (req : Request β)

/-- The forwarded request: the credentials replaced, and JSON as the content type if none is
named. -/
theorem forward_eq : forward token req =
    { req with
      credentials := some ⟨token⟩
      headers := if (req.headers.get (.ofStr "Content-Type")).isNone then
          req.headers.insert (.ofStr "Content-Type") "application/json"
        else req.headers } := by
  simp only [forward]
  split <;> rfl

@[simp] theorem forward_credentials : (forward token req).credentials = some ⟨token⟩ := by
  rw [forward_eq]

@[simp] theorem forward_rest : (forward token req).rest = req.rest := by
  rw [forward_eq]

/-- **The endpoint sees the headers it was sent**, except that a missing `Content-Type` is
`application/json`. -/
theorem forward_headers_get (name : HeaderName) :
    (forward token req).headers.get name =
      if name = .ofStr "Content-Type" then some ((req.headers.get name).getD "application/json")
      else req.headers.get name := by
  rw [forward_eq]
  by_cases hname : name = .ofStr "Content-Type"
  · subst hname
    cases h : req.headers.get (.ofStr "Content-Type") <;> simp [h, HeaderMap.get_insert]
  · dsimp only
    split <;> simp only [HeaderMap.get_insert, hname, if_false]

theorem forward_headers_get_authorization :
    (forward token req).headers.get (.ofStr "Authorization") =
      req.headers.get (.ofStr "Authorization") := by
  rw [forward_headers_get, if_neg (by decide)]

/-- The forwarded request carries the same token as the request sent. -/
theorem authToken_forward : authToken codecs (forward token req) = authToken codecs req := by
  simp only [authToken, forward_headers_get_authorization]

/-- Forwarding a forwarded request again only replaces its token. -/
theorem forward_forward (token' : String) :
    forward token (forward token' req) = forward token req := by
  simp only [forward_eq]
  congr 1
  by_cases hnone : (req.headers.get (.ofStr "Content-Type")).isNone
  · simp [hnone, HeaderMap.get_insert]
  · simp [hnone]

end Forward

/-! ## The middleware is idempotent -/

/-- **Wrapping twice is wrapping once**: the outer middleware reads the same token as the inner one
and leaves nothing for the inner one to change, and `into_response` of a `Response` is the
response. -/
theorem transform_transform (intoResponse : ρ → σ) (ep : Endpoint β ε ρ) :
    SharingAuth.transform codecs id (SharingAuth.transform codecs intoResponse ep) =
      SharingAuth.transform codecs intoResponse ep := by
  funext req
  simp only [SharingAuth.transform, call_eq_bind, authToken_forward]
  cases authToken codecs req with
  | error e => rfl
  | ok token => simp only [ok_bind, forward_forward, Except.map_id, id_eq]

/-! ## Which token is read -/

theorem not_beq_blank {w : List Char} (h : ' ' ∉ w) : ∀ c ∈ w, ¬ (c == ' ') = true :=
  fun _ hc hb => h (beq_iff_eq.mp hb ▸ hc)

/-- A word without blanks, followed by nothing or by a blank, is the first piece of the split. -/
theorem splitOn_word (word trailing : List Char) (hword : ' ' ∉ word)
    (htrail : trailing = [] ∨ ∃ more, trailing = ' ' :: more) :
    ∃ rest, (word ++ trailing).splitOn ' ' = word :: rest := by
  rcases htrail with rfl | ⟨more, rfl⟩
  · refine ⟨[], ?_⟩
    rw [List.append_nil]
    exact List.splitOnP_eq_single _ _ (not_beq_blank hword)
  · exact ⟨_, List.splitOnP_first _ _ (not_beq_blank hword) ' ' rfl more⟩

/-- **The token is the second word**: whatever the scheme word before it and whatever follows it
after a blank, the token is the UTF-8 text of the base64 decoding of the second word, and the
endpoint's outcome on the forwarded request is the middleware's. -/
theorem call_bearer (intoResponse : ρ → σ) (ep : Endpoint β ε ρ) (req : Request β)
    (scheme word trailing : List Char) (bytes : List UInt8) (token : String)
    (hauth : req.headers.get (.ofStr "Authorization") =
      some ⟨scheme ++ ' ' :: word ++ trailing⟩)
    (hvisible : ∀ c ∈ scheme ++ ' ' :: word ++ trailing, isVisibleAscii c = true)
    (hscheme : ' ' ∉ scheme) (hword : ' ' ∉ word)
    (htrail : trailing = [] ∨ ∃ more, trailing = ' ' :: more)
    (hbase64 : codecs.base64Decode word = some bytes)
    (hutf8 : codecs.fromUtf8 bytes = some token) :
    SharingAuthImpl.call codecs intoResponse ep req =
      (ep (forward token req)).map (.map intoResponse) := by
  obtain ⟨rest, hrest⟩ := splitOn_word word trailing hword htrail
  have hsplit : (scheme ++ ' ' :: word ++ trailing).splitOn ' ' = scheme :: word :: rest := by
    rw [List.append_assoc, List.cons_append, List.splitOn,
      List.splitOnP_first _ _ (not_beq_blank hscheme) ' ' rfl]
    exact congrArg (scheme :: ·) hrest
  have htoStr : HeaderValue.toStr ⟨scheme ++ ' ' :: word ++ trailing⟩ =
      some ⟨scheme ++ ' ' :: word ++ trailing⟩ := if_pos (List.all_eq_true.mpr hvisible)
  have htoken : authToken codecs req = .ok token := by
    simp only [authToken, hauth, unwrapOption, ok_bind, htoStr, unwrapResult, hsplit, index,
      List.getElem?_cons_succ, List.getElem?_cons_zero, hbase64, hutf8]
  rw [call_eq_bind, htoken]
  rfl

end Middleware

/-- A request from a client that holds the token `token` and names the scheme `Bearer`:
`dG9rZW4=` is the base64 of the bytes of `token`. -/
def tokenRequest : Request Unit := ⟨[(.ofStr "authorization", "Bearer dG9rZW4=")], none, ()⟩

/-- Decoders that agree with `base64::decode` and `String::from_utf8` on that request's header. -/
def tokenCodecs : Codecs where
  base64Decode w := if w = "dG9rZW4=".data then some [116, 111, 107, 101, 110] else none
  fromUtf8 bs := if bs = [116, 111, 107, 101, 110] then some "token" else none

/-- An endpoint that answers with the credentials it receives. -/
def echoCredentials : Endpoint Unit Unit (Option Credentials) :=
  fun req => .ok (.ok req.credentials)

theorem call_bearer_token :
    tokenRequest.headers.get (.ofStr "Authorization") =
      some ⟨"Bearer".data ++ ' ' :: "dG9rZW4=".data ++ []⟩ ∧
    (∀ c ∈ "Bearer".data ++ ' ' :: "dG9rZW4=".data ++ [], isVisibleAscii c = true) ∧
    ' ' ∉ "Bearer".data ∧ ' ' ∉ "dG9rZW4=".data ∧
    tokenCodecs.base64Decode "dG9rZW4=".data = some [116, 111, 107, 101, 110] ∧
    tokenCodecs.fromUtf8 [116, 111, 107, 101, 110] = some "token" ∧
    SharingAuthImpl.call tokenCodecs id echoCredentials tokenRequest =
      (echoCredentials (forward "token" tokenRequest)).map (.map id) :=
  ⟨by decide, by decide, by decide, by decide, by decide, by decide,
    call_bearer tokenCodecs id echoCredentials tokenRequest "Bearer".data "dG9rZW4=".data []
      [116, 111, 107, 101, 110] "token" (by decide) (by decide) (by decide) (by decide) (.inl rfl)
      (by decide) (by decide)⟩

end Sharing

end Datafuse
