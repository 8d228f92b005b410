import EvidraBench.Gostd.Encoding
import EvidraBench.Gostd.Struct

/-!
# Static keys and browser sessions

`internal/auth`: a request is authenticated by a bearer header that carries the API key, or by a
session cookie whose payload is tagged with the key.

Results: `verify_new`, `bearer_iff`, `authenticate_iff`.

Go strings are octets here; only the tenant is a text, as the claims carry it.

Source: `internal/auth/session.go`
-/

namespace EvidraBench.Auth

open EvidraBench.Gostd

/-! ### Bearer headers -/

/-- Source: `internal/auth/middleware.go` `bearerPrefix` -/
def bearerPrefix : Bytes := [98, 101, 97, 114, 101, 114, 32]

/-- The letters of `bearerPrefix` are no lower case of a letter outside ASCII.
Source: `internal/auth/middleware.go` `ParseBearerToken` -/
def parseBearerToken (header : Bytes) : Bytes :=
  let trimmed := trimOctets header
  if !bearerPrefix.isPrefixOf (trimmed.map lowerOctet) then []
  else trimmed.drop bearerPrefix.length

/-- Whether nothing but white space is left: `strings.TrimSpace(s) == ""`. -/
def isBlank (s : Bytes) : Bool := (trimOctets s).isEmpty

/-- Source: `internal/auth/middleware.go` `StaticKeyMatches` -/
def staticKeyMatches (apiKey candidate : Bytes) : Bool :=
  if isBlank apiKey || candidate.isEmpty then false else candidate == apiKey

/-! ### Session cookies -/

/-- What `time.Time.Unix` returns, an `int64`. -/
def UnixTime := { n : Int // -(2 ^ 63) ≤ n ∧ n < 2 ^ 63 }

def sessionClaims : GoType := .struct [("tenant_id", .string), ("exp", .int)]

/-- What `json.Marshal` writes for the claims.
Source: `newSessionCookieValue` -/
def claimsText (tenantID : String) (expiresAt : Int) : List Char :=
  '{' :: (jsonString "tenant_id" ++ ':' :: (jsonString tenantID ++ ',' ::
    (jsonString "exp" ++ ':' :: (formatInt expiresAt ++ ['}']))))

section cookie

-- HMAC-SHA256: the tag of a message under a key.
variable (mac : Bytes → Bytes → Bytes)

def signSessionPayload (apiKey encodedPayload : Bytes) : Bytes :=
  rawURLEncode (mac apiKey encodedPayload)

def newSessionCookieValue (apiKey : Bytes) (tenantID : String) (expiresAt : UnixTime) :
    Except String Bytes :=
  if isBlank apiKey then .error "api key is required"
  else if isBlank (bytesOf tenantID) then .error "tenant id is required"
  else
    let payload := bytesOf (String.ofList (claimsText tenantID expiresAt.1))
    let encodedPayload := rawURLEncode payload
    .ok (encodedPayload ++ 46 :: signSessionPayload mac apiKey encodedPayload)

structure Issue where
  apiKey : Bytes
  tenantID : String
  expiresAt : UnixTime

def Issue.value (i : Issue) : Except String Bytes :=
  newSessionCookieValue mac i.apiKey i.tenantID i.expiresAt

def Issue.payload (i : Issue) : Bytes :=
  rawURLEncode (bytesOf (String.ofList (claimsText i.tenantID i.expiresAt.1)))

/-- The signature that a call puts behind the payload. -/
def Issue.signature (i : Issue) : Bytes := signSessionPayload mac i.apiKey i.payload

/-- The tenant of a session that is verified.
Source: `verifySessionCookieValue` -/
def verifySessionCookieValue (apiKey value : Bytes) (now : UnixTime) : Option String :=
  if isBlank apiKey then none
  else
    match value.splitOn 46 with
    | [encodedPayload, signature] =>
        if signature ≠ signSessionPayload mac apiKey encodedPayload then none
        else do
          let payload ← rawURLDecode encodedPayload
          let claims ← unmarshal sessionClaims (decodeUtf8 payload)
          let tenantID := (claims.field "tenant_id").asString
          let expiresAt := (claims.field "exp").asInt
          if isBlank (bytesOf tenantID) || expiresAt ≤ now.1 then none else some tenantID
    | _ => none

/-! ### Requests -/

structure Request where
  /-- The first `Authorization` header, empty without one. -/
  authorization : Bytes
  /-- The cookies, by name and in order. -/
  cookies : List (String × Bytes)

def sessionCookieName : String := "bench_session"

/-- The first cookie of the session's name, as `http.Request.Cookie` returns it. -/
def Request.sessionCookie (r : Request) : Option Bytes := r.cookies.lookup sessionCookieName

/-- The tenant of an authenticated request.
Source: `internal/auth/middleware.go` `AuthenticateStaticRequest` -/
def authenticateStaticRequest (r : Request) (apiKey : Bytes) (defaultTenant : String)
    (now : UnixTime) : Option String :=
  let token := parseBearerToken r.authorization
  if staticKeyMatches apiKey token then some defaultTenant
  else if isBlank apiKey then none
  else
    match r.sessionCookie with
    | none => none
    | some value =>
        match verifySessionCookieValue mac apiKey value now with
        | none => none
        | some tenantID =>
            if defaultTenant ≠ "" ∧ tenantID ≠ defaultTenant then none else some tenantID

end cookie

/-! ### The claims -/

def claimsFields (tenantID : String) (expiresAt : Int) : List StructField :=
  [.string "tenant_id" tenantID, .int "exp" expiresAt]

theorem claimsText_eq (tenantID : String) (expiresAt : Int) :
    claimsText tenantID expiresAt =
      (Json.obj (StructField.members (claimsFields tenantID expiresAt))).text .compact 0 := by
  simp only [claimsText, claimsFields, StructField.members, StructField.string, StructField.int,
    Json.text, Layout.first, Layout.compact]
  rfl

/-- **The claims that are written are read back.** -/
theorem unmarshal_claimsText (tenantID : String) (expiresAt : UnixTime) :
    unmarshal sessionClaims (claimsText tenantID expiresAt.1) =
      some (.struct [("tenant_id", .str tenantID), ("exp", .int expiresAt.1)]) := by
  have hreads : ∀ f ∈ claimsFields tenantID expiresAt.1, f.ReadsBack := by
    intro f hf
    rcases List.mem_cons.mp hf with rfl | hf
    · exact StructField.readsBack_string _ _
    · rw [List.mem_singleton.mp hf]
      exact StructField.readsBack_int _ expiresAt.2.1 expiresAt.2.2
  rw [claimsText_eq]
  refine unmarshal_text (reads_struct ?_ hreads) ?_ .compact
  · show ["tenant_id", "exp"].Nodup
    decide
  · exact ⟨by decide, trivial, isLiteral_formatInt _, trivial⟩

/-! ### Issuing and verifying -/

section verify

variable {mac : Bytes → Bytes → Bytes} {apiKey value : Bytes} {now : UnixTime} {i : Issue}

theorem value_eq_ok (h : i.value mac = .ok value) :
    isBlank i.apiKey = false ∧ isBlank (bytesOf i.tenantID) = false ∧
      i.payload ++ 46 :: i.signature mac = value := by
  unfold Issue.value newSessionCookieValue at h
  split_ifs at h with hkey htenant
  exact ⟨Bool.eq_false_iff.mpr hkey, Bool.eq_false_iff.mpr htenant, Except.ok.inj h⟩

theorem splitOn_payload (signature : Bytes) :
    (i.payload ++ 46 :: signature).splitOn 46 = i.payload :: signature.splitOn 46 :=
  List.splitOn_append_cons_self_of_not_mem (dot_notMem_rawURLEncode _) signature

theorem splitOn_sign (encodedPayload : Bytes) :
    (signSessionPayload mac apiKey encodedPayload).splitOn 46 =
      [signSessionPayload mac apiKey encodedPayload] :=
  List.splitOn_eq_singleton (dot_notMem_rawURLEncode _)

theorem eq_of_splitOn_one {text part : Bytes} (h : text.splitOn 46 = [part]) : text = part := by
  have hwhole : [46].intercalate (text.splitOn 46) = text := List.intercalate_splitOn 46
  rw [h, List.intercalate_singleton] at hwhole
  exact hwhole.symm

theorem eq_of_splitOn_two {text part part' : Bytes} (h : text.splitOn 46 = [part, part']) :
    text = part ++ 46 :: part' := by
  have hwhole : [46].intercalate (text.splitOn 46) = text := List.intercalate_splitOn 46
  rw [h, List.intercalate_cons_cons, List.intercalate_singleton, List.append_assoc,
    List.singleton_append] at hwhole
  exact hwhole.symm

theorem splitOn_of_verify {t : String}
    (h : verifySessionCookieValue mac apiKey value now = some t) :
    ∃ encodedPayload, value.splitOn 46 =
      [encodedPayload, signSessionPayload mac apiKey encodedPayload] := by
  unfold verifySessionCookieValue at h
  split_ifs at h
  split at h
  · rename_i encodedPayload signature hsplit
    split_ifs at h with hsignature
    exact ⟨encodedPayload, by rw [hsplit, not_not.mp hsignature]⟩
  · cases h

/-- **What is issued is verified** until it expires, for every tenant and every expiry. -/
theorem verify_new (h : i.value mac = .ok value) :
    verifySessionCookieValue mac i.apiKey value now =
      if i.expiresAt.1 ≤ now.1 then none else some i.tenantID := by
  obtain ⟨hkey, htenant, rfl⟩ := value_eq_ok h
  have hdecode : rawURLDecode i.payload =
      some (bytesOf (String.ofList (claimsText i.tenantID i.expiresAt.1))) :=
    rawURLDecode_encode _
  have hclaims := unmarshal_claimsText i.tenantID i.expiresAt
  unfold verifySessionCookieValue
  rw [hkey, splitOn_payload, Issue.signature, splitOn_sign]
  simp only [Bool.false_eq_true, if_false, ne_eq, not_true_eq_false, hdecode, Option.bind_eq_bind,
    Option.bind_some, decodeUtf8_bytesOf, String.toList_ofList, hclaims]
  show (if isBlank (bytesOf i.tenantID) || decide (i.expiresAt.1 ≤ now.1) then none
    else some i.tenantID) = _
  simp only [htenant, Bool.false_or, decide_eq_true_eq]

end verify

/-! ### Who gets in -/

/-- A header that names the bearer scheme, in any letter case, and one space later a token: what
is left of the trimmed header, blanks and all. -/
def BearerHeader (header token : Bytes) : Prop :=
  ∃ scheme, scheme.map lowerOctet = bearerPrefix ∧ trimOctets header = scheme ++ token

def InjectiveTag (mac : Bytes → Bytes → Bytes) : Prop :=
  ∀ k p k' p', mac k p = mac k' p' → k = k' ∧ p = p'

/-- A tag under the key that a value presents was made by a call of the log, which signed that
very payload under that key. -/
def Unforgeable (mac : Bytes → Bytes → Bytes) (log : List Issue) (apiKey value : Bytes) : Prop :=
  ∀ encodedPayload, value = encodedPayload ++ 46 :: signSessionPayload mac apiKey encodedPayload →
    ∃ i ∈ log, i.apiKey = apiKey ∧ (∃ issued, i.value mac = .ok issued) ∧
      i.payload = encodedPayload

section authenticate

variable {mac : Bytes → Bytes → Bytes} {log : List Issue} {r : Request} {apiKey value : Bytes}
  {defaultTenant : String} {now : UnixTime} {i : Issue}

/-- **Which headers carry the key.** -/
theorem bearer_iff (hkey : isBlank apiKey = false) (header : Bytes) :
    staticKeyMatches apiKey (parseBearerToken header) = true ↔ BearerHeader header apiKey := by
  have hnonempty : apiKey ≠ [] := by
    rintro rfl
    cases hkey
  have hmatches : ∀ token, staticKeyMatches apiKey token = true ↔ token = apiKey := by
    intro token
    unfold staticKeyMatches
    rw [hkey, Bool.false_or]
    split_ifs with htoken
    · rw [List.isEmpty_iff.mp htoken]
      exact iff_of_false not_false hnonempty.symm
    · exact beq_iff_eq
  rw [hmatches]
  unfold parseBearerToken BearerHeader
  dsimp only
  generalize trimOctets header = trimmed
  constructor
  · intro h
    split_ifs at h with hscheme
    · exact absurd h.symm hnonempty
    · rw [Bool.not_eq_true', Bool.not_eq_false, List.isPrefixOf_iff_prefix] at hscheme
      refine ⟨trimmed.take bearerPrefix.length, ?_, ?_⟩
      · rw [List.map_take]
        exact (List.prefix_iff_eq_take.mp hscheme).symm
      · rw [← h, List.take_append_drop]
  · rintro ⟨scheme, hscheme, rfl⟩
    have hlength : scheme.length = bearerPrefix.length := by
      rw [← hscheme, List.length_map]
    have hfound : bearerPrefix.isPrefixOf ((scheme ++ apiKey).map lowerOctet) = true := by
      rw [List.isPrefixOf_iff_prefix, List.map_append, hscheme]
      exact List.prefix_append _ _
    rw [hfound, Bool.not_true, if_neg Bool.false_ne_true, ← hlength, List.drop_left]

theorem verify_issued (hmac : InjectiveTag mac) (h : i.value mac = .ok value) :
    verifySessionCookieValue mac apiKey value now =
      if i.apiKey = apiKey ∧ now.1 < i.expiresAt.1 then some i.tenantID else none := by
  by_cases hkey : i.apiKey = apiKey
  · subst hkey
    rw [verify_new h]
    by_cases hexpired : i.expiresAt.1 ≤ now.1
    · rw [if_pos hexpired, if_neg fun hlive => hlive.2.not_ge hexpired]
    · rw [if_neg hexpired, if_pos ⟨rfl, not_le.mp hexpired⟩]
  · rw [if_neg fun hlive => hkey hlive.1, Option.eq_none_iff_forall_ne_some]
    intro t ht
    obtain ⟨-, -, rfl⟩ := value_eq_ok h
    obtain ⟨encodedPayload, hsplit⟩ := splitOn_of_verify ht
    rw [splitOn_payload, Issue.signature, splitOn_sign] at hsplit
    obtain ⟨rfl, hsignature⟩ : i.payload = encodedPayload ∧
        signSessionPayload mac i.apiKey i.payload = signSessionPayload mac apiKey encodedPayload :=
      by simpa using hsplit
    exact hkey (hmac _ _ _ _ (rawURLEncode_injective hsignature)).1

theorem verify_payload_edit (hmac : InjectiveTag mac) {payload : Bytes}
    (hedit : payload ≠ i.payload) :
    verifySessionCookieValue mac apiKey (payload ++ 46 :: i.signature mac) now = none := by
  rw [Option.eq_none_iff_forall_ne_some]
  intro t ht
  obtain ⟨encodedPayload, hsplit⟩ := splitOn_of_verify ht
  rw [List.splitOn_append_cons_self, Issue.signature, splitOn_sign] at hsplit
  obtain ⟨hpayload, hsignature⟩ : payload.splitOn 46 = [encodedPayload] ∧
      [signSessionPayload mac i.apiKey i.payload] =
        [signSessionPayload mac apiKey encodedPayload] := List.append_inj' hsplit rfl
  have hsame := hmac _ _ _ _ (rawURLEncode_injective (List.cons.inj hsignature).1)
  exact hedit ((eq_of_splitOn_one hpayload).trans hsame.2.symm)

theorem verify_signature_edit {signature : Bytes} (hedit : signature ≠ i.signature mac) :
    verifySessionCookieValue mac i.apiKey (i.payload ++ 46 :: signature) now = none := by
  rw [Option.eq_none_iff_forall_ne_some]
  intro t ht
  obtain ⟨encodedPayload, hsplit⟩ := splitOn_of_verify ht
  rw [splitOn_payload] at hsplit
  obtain ⟨rfl, hsignature⟩ := List.cons.inj hsplit
  exact hedit (eq_of_splitOn_one hsignature)

theorem issued_of_verify {t : String} (hforge : Unforgeable mac log apiKey value)
    (h : verifySessionCookieValue mac apiKey value now = some t) :
    ∃ i ∈ log, i.apiKey = apiKey ∧ i.tenantID = t ∧ now.1 < i.expiresAt.1 ∧
      i.value mac = .ok value := by
  obtain ⟨encodedPayload, hsplit⟩ := splitOn_of_verify h
  have hvalue := eq_of_splitOn_two hsplit
  obtain ⟨i, hi, rfl, ⟨issued, hissued⟩, rfl⟩ := hforge encodedPayload hvalue
  have heq : issued = value := (value_eq_ok hissued).2.2.symm.trans hvalue.symm
  subst heq
  rw [verify_new hissued] at h
  split_ifs at h with hexpired
  exact ⟨i, hi, rfl, Option.some.inj h, not_le.mp hexpired, hissued⟩

theorem authenticate_of_not_bearer (hkey : isBlank apiKey = false)
    (htenant : isBlank (bytesOf defaultTenant) = false)
    (hbearer : ¬ BearerHeader r.authorization apiKey) {t : String} :
    authenticateStaticRequest mac r apiKey defaultTenant now = some t ↔
      t = defaultTenant ∧ ∃ value, r.sessionCookie = some value ∧
        verifySessionCookieValue mac apiKey value now = some defaultTenant := by
  have hnamed : defaultTenant ≠ "" := by
    rintro rfl
    cases htenant
  have hmatches : staticKeyMatches apiKey (parseBearerToken r.authorization) = false :=
    Bool.eq_false_iff.mpr fun h => hbearer ((bearer_iff hkey _).mp h)
  unfold authenticateStaticRequest
  simp only [hmatches, hkey, Bool.false_eq_true, if_false]
  cases hcookie : r.sessionCookie with
  | none => simp
  | some value =>
      cases hverify : verifySessionCookieValue mac apiKey value now with
      | none => simp [hverify]
      | some tenantID =>
          simp only [hnamed, ne_eq, not_false_eq_true, true_and, Option.some.injEq, exists_eq_left',
            hverify]
          split_ifs with hother
          · rw [hother, Option.some.injEq]
            exact ⟨fun h => ⟨h.symm, rfl⟩, fun h => h.1.symm⟩
          · exact iff_of_false (by simp) fun h => hother h.2

theorem authenticate_eq_none (hkey : isBlank apiKey = false)
    (htenant : isBlank (bytesOf defaultTenant) = false)
    (hbearer : ¬ BearerHeader r.authorization apiKey) (hcookie : r.sessionCookie = some value)
    (hverify : verifySessionCookieValue mac apiKey value now ≠ some defaultTenant) :
    authenticateStaticRequest mac r apiKey defaultTenant now = none := by
  rw [Option.eq_none_iff_forall_ne_some]
  intro t ht
  obtain ⟨-, value', hcookie', hverify'⟩ :=
    (authenticate_of_not_bearer hkey htenant hbearer).mp ht
  obtain rfl := Option.some.inj (hcookie.symm.trans hcookie')
  exact hverify hverify'

/-- **Who gets in.** A request is accepted, for the default tenant, exactly when its header carries
the key or its session cookie was issued under the key for that tenant and has not expired. Without
the key in the header, a cookie issued under another key, for another tenant or up to now is turned
away, and so is an issued one whose payload or signature was edited. -/
theorem authenticate_iff (hmac : InjectiveTag mac) (hkey : isBlank apiKey = false)
    (htenant : isBlank (bytesOf defaultTenant) = false)
    (hforge : ∀ value, r.sessionCookie = some value → Unforgeable mac log apiKey value) :
    (∀ t, authenticateStaticRequest mac r apiKey defaultTenant now = some t ↔
      t = defaultTenant ∧ (BearerHeader r.authorization apiKey ∨
        ∃ i ∈ log, i.apiKey = apiKey ∧ i.tenantID = defaultTenant ∧ now.1 < i.expiresAt.1 ∧
          ∃ value, i.value mac = .ok value ∧ r.sessionCookie = some value)) ∧
    (¬ BearerHeader r.authorization apiKey → ∀ i : Issue, ∀ value, i.value mac = .ok value →
      (r.sessionCookie = some value →
        i.apiKey ≠ apiKey ∨ i.tenantID ≠ defaultTenant ∨ i.expiresAt.1 ≤ now.1 →
          authenticateStaticRequest mac r apiKey defaultTenant now = none) ∧
      (∀ payload, payload ≠ i.payload →
        r.sessionCookie = some (payload ++ 46 :: i.signature mac) →
          authenticateStaticRequest mac r apiKey defaultTenant now = none) ∧
      (∀ signature, i.apiKey = apiKey → signature ≠ i.signature mac →
        r.sessionCookie = some (i.payload ++ 46 :: signature) →
          authenticateStaticRequest mac r apiKey defaultTenant now = none)) := by
  constructor
  · intro t
    by_cases hbearer : BearerHeader r.authorization apiKey
    · have haccept : authenticateStaticRequest mac r apiKey defaultTenant now =
          some defaultTenant := by
        unfold authenticateStaticRequest
        simp only [(bearer_iff hkey _).mpr hbearer, if_true]
      rw [haccept, Option.some.injEq]
      exact ⟨fun h => ⟨h.symm, Or.inl hbearer⟩, fun h => h.1.symm⟩
    · rw [authenticate_of_not_bearer hkey htenant hbearer]
      refine and_congr_right fun _ => ⟨?_, ?_⟩
      · rintro ⟨value, hcookie, hverify⟩
        obtain ⟨i, hi, hikey, hitenant, hlive, hissued⟩ :=
          issued_of_verify (hforge value hcookie) hverify
        exact Or.inr ⟨i, hi, hikey, hitenant, hlive, value, hissued, hcookie⟩
      · rintro (h | ⟨i, -, hikey, hitenant, hlive, value, hissued, hcookie⟩)
        · exact absurd h hbearer
        · refine ⟨value, hcookie, ?_⟩
          rw [verify_issued hmac hissued, if_pos ⟨hikey, hlive⟩, hitenant]
  · intro hbearer i value hissued
    refine ⟨fun hcookie hwrong => ?_, fun payload hedit hcookie => ?_,
      fun signature hikey hedit hcookie => ?_⟩
    · refine authenticate_eq_none hkey htenant hbearer hcookie ?_
      rw [verify_issued hmac hissued]
      split_ifs with hlive
      · intro heq
        rcases hwrong with hother | hother | hexpired
        · exact hother hlive.1
        · exact hother (Option.some.inj heq)
        · exact hlive.2.not_ge hexpired
      · exact Option.some_ne_none _ ∘ Eq.symm
    · refine authenticate_eq_none hkey htenant hbearer hcookie ?_
      rw [verify_payload_edit hmac hedit]
      exact Option.some_ne_none _ ∘ Eq.symm
    · subst hikey
      refine authenticate_eq_none hkey htenant hbearer hcookie ?_
      rw [verify_signature_edit hedit]
      exact Option.some_ne_none _ ∘ Eq.symm

theorem unforgeable_issued (hi : i ∈ log) (h : i.value mac = .ok value) :
    Unforgeable mac log i.apiKey value := by
  obtain ⟨-, -, rfl⟩ := value_eq_ok h
  intro encodedPayload hvalue
  refine ⟨i, hi, rfl, ⟨_, h⟩, ?_⟩
  have hsplit := splitOn_payload (i := i) (i.signature mac)
  rw [hvalue, List.splitOn_append_cons_self, splitOn_sign, Issue.signature, splitOn_sign] at hsplit
  obtain ⟨hpayload, -⟩ : encodedPayload.splitOn 46 = [i.payload] ∧
      [signSessionPayload mac i.apiKey encodedPayload] =
        [signSessionPayload mac i.apiKey i.payload] := List.append_inj' hsplit rfl
  exact (eq_of_splitOn_one hpayload).symm

end authenticate

/-- A tag that holds its key and its message: every octet of the key behind a mark. -/
def plainTag : Bytes → Bytes → Bytes
  | [], p => 0 :: p
  | b :: k, p => 1 :: b :: plainTag k p

theorem injectiveTag_plainTag : InjectiveTag plainTag := by
  intro k p k' p' h
  induction k generalizing k' with
  | nil =>
      cases k' with
      | nil => exact ⟨rfl, (List.cons.inj h).2⟩
      | cons b k' => cases (List.cons.inj h).1
  | cons b k ih =>
      cases k' with
      | nil => cases (List.cons.inj h).1
      | cons b' k' =>
          obtain ⟨hb, hrest⟩ := List.cons.inj (List.cons.inj h).2
          obtain ⟨rfl, rfl⟩ := ih k' hrest
          exact ⟨by rw [hb], rfl⟩

/-- A session of the tenant `acme` under the key `k`, and a request with its cookie. -/
theorem authenticate_iff_session :
    let i : Issue := ⟨[107], "acme", ⟨100, by decide⟩⟩
    ∃ value, i.value plainTag = .ok value ∧
      authenticateStaticRequest plainTag ⟨[], [(sessionCookieName, value)]⟩ [107] "acme"
        ⟨99, by decide⟩ = some "acme" := by
  intro i
  have hissued : i.value plainTag = .ok (i.payload ++ 46 :: i.signature plainTag) := rfl
  have hlog : i ∈ [i] := List.mem_singleton_self i
  have hforge : ∀ value,
      Request.sessionCookie ⟨[], [(sessionCookieName, i.payload ++ 46 :: i.signature plainTag)]⟩ =
        some value → Unforgeable plainTag [i] [107] value := by
    intro value hvalue
    obtain rfl := Option.some.inj hvalue
    exact unforgeable_issued hlog hissued
  refine ⟨_, hissued, ?_⟩
  exact ((authenticate_iff injectiveTag_plainTag (by decide) (by decide) hforge).1 _).mpr
    ⟨rfl, Or.inr ⟨i, hlog, rfl, rfl, by decide, _, hissued, rfl⟩⟩

/-- The blanks around a token are part of it: `Bearer k` with two blanks does not carry the key
`k`, although its token is `k` once it is trimmed. -/
theorem authenticate_blank_token :
    let header : Bytes := [66, 101, 97, 114, 101, 114, 32, 32, 107]
    BearerHeader header [32, 107] ∧ trimOctets [32, 107] = [107] ∧
      authenticateStaticRequest plainTag ⟨header, []⟩ [107] "acme" ⟨99, by decide⟩ = none := by
  refine ⟨⟨[66, 101, 97, 114, 101, 114, 32], by decide, by decide⟩, by decide, by decide⟩

end EvidraBench.Auth
