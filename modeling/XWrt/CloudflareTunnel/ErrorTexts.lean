import XWrt.Foundation.Replace
import XWrt.CloudflareTunnel.Hostname

/-!
# Texts of errors

The errors that `client` of `runtime.lua` raises for what curl and Cloudflare
report. In the diagnostics of curl the API token is replaced before the text is
cut to 1000 bytes, in the messages of Cloudflare after it. The orders agree
unless the joined messages are longer and have the token start in front of the
cut.
-/

namespace XWrt.CloudflareTunnel

open Foundation.Replace
open Foundation.Text

/-! ## Accepted settings -/

/-- The table given to `M.settings`; a field that is not a string is `none`. -/
structure SettingsInput where
  hostname : Option String
  apiToken : Option String

/-- `[A-Za-z0-9_%-]` -/
def isApiTokenChar (char : Char) : Bool := char.isAlphanum || char == '_' || char == '-'

/-- `M.settings`; `previous` is the saved token. -/
def settings (input : Option SettingsInput) (previous : Option String) : Except Failure Settings :=
  match input with
  | none => .error ⟨.settings, "Missing configuration."⟩
  | some input =>
      let typed := trim (input.apiToken.getD "").toList
      let token := if typed = [] then (previous.getD "").toList else typed
      if token.length < 20 || 512 < token.length || !token.all isApiTokenChar then
        .error ⟨.token, "Enter a Cloudflare API token."⟩
      else (hostname (input.hostname.getD "")).map fun name => ⟨name, String.ofList token⟩

/-! ## What comes back from curl -/

/-- A run of curl: what it wrote, and its exit code. -/
structure Transfer where
  output : List Char
  stderr : List Char
  exitCode : ℕ

/-- `read_output` -/
def readOutput (limit : ℕ) (written : List Char) : Option (List Char) :=
  if written.length ≤ limit then some written else none

/-- What `execute` returns of a run. -/
def executed (transfer : Transfer) : List Char × ℕ × List Char :=
  match readOutput 2097152 transfer.output with
  | some raw => (raw, transfer.exitCode, (readOutput 8192 transfer.stderr).getD [])
  | none => ([], 125, [])

def redacted : List Char := "[redacted]".toList

/-- The `gsub` of the token. -/
def redact (token text : List Char) : List Char := replaceAll token redacted text

/-- `%c` -/
def isControl (char : Char) : Bool := char.toNat < 32 || char.toNat == 127

/-- `gsub("%c", " ")` on one character -/
def clean (char : Char) : Char := if isControl char then ' ' else char

/-- The detail that `request` returns. -/
def requestDetail (token : Option (List Char)) (detail : List Char) : List Char :=
  let detail := match token with
    | some token => redact token detail
    | none => detail
  (trim (detail.map clean)).take 1000

/-- `raw:match("^(.*)\n(%d%d%d)$")`, with an empty body and status 0 where it fails -/
def splitStatus (raw : List Char) : List Char × ℕ :=
  match raw.reverse with
  | c :: b :: a :: '\n' :: body =>
      if a.isDigit && b.isDigit && c.isDigit then
        (body.reverse, (a.toNat - 48) * 100 + (b.toNat - 48) * 10 + (c.toNat - 48))
      else ([], 0)
  | _ => ([], 0)

structure Response where
  body : List Char
  status : ℕ
  code : ℕ
  detail : List Char

/-- `request` -/
def request (token : Option (List Char)) (transfer : Transfer) : Response :=
  let (raw, code, detail) := executed transfer
  let (body, status) := splitStatus raw
  { body := body, status := status, code := code, detail := requestDetail token detail }

/-- The attempts of `client`: a GET that was limited or failed on the server is sent up to three times. -/
def lastResponse (get : Bool) (attempt : ℕ → Response) : Response :=
  let settled := fun response : Response => !get || (response.status != 429 && response.status < 500)
  if settled (attempt 1) then attempt 1 else if settled (attempt 2) then attempt 2 else attempt 3

/-! ## The errors of `client` -/

def permissionText : Scope → String
  | .zone => "Zone / Zone / Read, including the hostname's zone"
  | .dns => "Zone / DNS / Edit, including the hostname's zone"
  | .tunnel => "Account / Cloudflare Tunnel / Edit, including the zone's account"

def networkHint (code : ℕ) (detail : List Char) : String :=
  if code = 35 then
    if "-0x3A00".toList <:+: detail ∨ "Elliptic curve is unsupported".toList <:+: detail then
      "The router's mbedTLS build lacks a certificate curve. Rebuild libmbedtls with CONFIG_MBEDTLS_ECP_DP_SECP384R1_ENABLED=y."
    else "TLS handshake failed. Check the router's TLS library and proxy settings."
  else if code = 60 ∨ code = 77 then "Check the router clock and CA certificates (ca-bundle)."
  else "Check Internet access and the router clock."

/-- A parsed answer: whether `success` is `true`, and `item.message`, where it is a string, of every error. -/
structure Envelope where
  success : Bool
  errors : List (Option String)

/-- `table.concat(messages, "; ")` -/
def joinedMessages (data : Envelope) : List Char := (String.intercalate "; " (data.errors.filterMap id)).toList

/-- The text about the messages of Cloudflare: cut, and then redacted. -/
def apiText (token joined : List Char) : List Char := redact token (joined.take 1000)

def apiFailure (status : ℕ) (message : List Char) : Failure :=
  ⟨.api, "Cloudflare API HTTP " ++ toString status ++ if message = [] then "" else ": " ++ String.ofList message⟩

def failedStatus (status : ℕ) (data : Envelope) : Bool := status < 200 || 300 ≤ status || !data.success

/-- The error of the function that `client` returns, if it raises one: `parse` is the JSON parser,
and `text` what is made of the token and the joined messages. -/
def clientFailure (parse : List Char → Option Envelope) (text : List Char → List Char → List Char) (token : List Char)
    (scope : Option Scope) (response : Response) : Option Failure :=
  if response.code ≠ 0 then
    some ⟨.network, "Cannot reach Cloudflare (curl exit " ++ toString response.code ++ "). " ++
      networkHint response.code response.detail ++
        if response.detail = [] then "" else " Details: " ++ String.ofList response.detail⟩
  else if response.status = 401 ∨ response.status = 403 then
    some ⟨.permission (scope.getD .zone), "Cloudflare rejected this operation. The same API token needs " ++
      permissionText (scope.getD .zone) ++ "."⟩
  else if response.status = 429 then some ⟨.rateLimit, "Cloudflare's API rate limit was reached. Retry later."⟩
  else match parse response.body with
    | none => some ⟨.api, "Cloudflare returned an invalid API response."⟩
    | some data =>
        if failedStatus response.status data then some (apiFailure response.status (text token (joinedMessages data)))
        else none

/-- A call of the function that `client` returns, on what its attempts would get. -/
def client (parse : List Char → Option Envelope) (token : List Char) (scope : Option Scope) (get : Bool)
    (transfers : ℕ → Transfer) : Option Failure :=
  clientFailure parse apiText token scope (lastResponse get fun attempt => request (some token) (transfers attempt))

/-! ## The reference: redacted before anything is cut -/

def redactedFirst (token joined : List Char) : List Char := (redact token joined).take 1000

/-- The answer with the diagnostic of curl replaced as a whole, and then cleaned, trimmed and cut. -/
def redactedFirstResponse (token : List Char) (transfer : Transfer) : Response where
  body := (splitStatus (executed transfer).1).1
  status := (splitStatus (executed transfer).1).2
  code := (executed transfer).2.1
  detail := (trim ((redact token (executed transfer).2.2).map clean)).take 1000

/-- The last answer of that kind. -/
def redactedFirstLast (token : List Char) (get : Bool) (transfers : ℕ → Transfer) : Response :=
  lastResponse get fun attempt => redactedFirstResponse token (transfers attempt)

theorem request_eq (token : List Char) (transfer : Transfer) :
    request (some token) transfer = redactedFirstResponse token transfer := rfl

/-- The joined messages, where `client` gets to report them. -/
def reported (parse : List Char → Option Envelope) (response : Response) : Option (List Char) :=
  if response.code ≠ 0 ∨ response.status = 401 ∨ response.status = 403 ∨ response.status = 429 then none
  else match parse response.body with
    | none => none
    | some data => if failedStatus response.status data then some (joinedMessages data) else none

theorem apiFailure_inj {status : ℕ} {message other : List Char} :
    apiFailure status message = apiFailure status other ↔ message = other := by
  constructor
  · intro same
    have same := congrArg (fun failure => failure.message.toList) same
    simp only [apiFailure, String.toList_append, List.append_assoc, List.append_cancel_left_eq] at same
    split_ifs at same with first second second
    · rw [first, second]
    · simp at same
    · simp at same
    · simpa using same
  · exact congrArg _

/-- Only the reported messages depend on what is made of them. -/
theorem clientFailure_eq_iff {parse : List Char → Option Envelope} {text other : List Char → List Char → List Char}
    {token : List Char} {scope : Option Scope} {response : Response} :
    clientFailure parse text token scope response = clientFailure parse other token scope response ↔
      ∀ joined, reported parse response = some joined → text token joined = other token joined := by
  unfold clientFailure reported
  by_cases network : response.code ≠ 0
  · simp [network]
  · by_cases permission : response.status = 401 ∨ response.status = 403
    · simp only [network, if_false, permission, if_true, true_iff, false_or]
      rintro joined none
      rw [if_pos (by tauto)] at none
      cases none
    · by_cases limited : response.status = 429
      · simp [network, limited]
      · rw [not_or] at permission
        simp only [network, permission.1, permission.2, limited, or_self, if_false]
        cases parse response.body with
        | none => simp
        | some data =>
            simp only
            split_ifs with failed
            · simp [apiFailure_inj]
            · simp

/-! ## The token in the texts -/

/-- A token that `M.settings` accepts. -/
structure AcceptedToken (token : List Char) : Prop where
  long : 20 ≤ token.length
  short : token.length ≤ 512
  chars : ∀ char ∈ token, isApiTokenChar char = true

theorem settings_token {input : Option SettingsInput} {previous : Option String} {accepted : Settings}
    (ok : settings input previous = .ok accepted) : AcceptedToken accepted.apiToken.toList := by
  unfold settings at ok
  cases input with
  | none => cases ok
  | some input =>
      simp only at ok
      split_ifs at ok with typed rejected rejected
      all_goals
        obtain ⟨name, -, rfl⟩ : ∃ name, hostname (input.hostname.getD "") = .ok name ∧ _ = accepted := by
          cases named : hostname (input.hostname.getD "") with
          | error failure =>
              rw [named] at ok
              cases ok
          | ok name =>
              rw [named] at ok
              exact ⟨name, rfl, Except.ok.inj ok⟩
        simp only [Bool.or_eq_true, decide_eq_true_eq, Bool.not_eq_true', not_or, not_lt, Bool.not_eq_false,
          List.all_eq_true] at rejected
        rw [String.toList_ofList]
        exact ⟨rejected.1.1, rejected.1.2, rejected.2⟩

section Accepted

variable {token : List Char} (accepted : AcceptedToken token)
include accepted

theorem AcceptedToken.notMem (char : Char) (other : isApiTokenChar char = false) : char ∉ token := fun inside => by
  rw [accepted.chars char inside] at other
  cases other

theorem AcceptedToken.ne_nil : token ≠ [] := by
  rintro rfl
  exact absurd accepted.long (by decide)

theorem redact_free (text : List Char) : ¬token <:+: redact token text := by
  have long : "redacted".toList.length + 2 ≤ token.length := le_trans (by decide) accepted.long
  have free : ¬token <:+: replaceAll token ('[' :: ("redacted".toList ++ [']'])) text :=
    replaceAll_free accepted.ne_nil (accepted.notMem '[' (by decide)) (accepted.notMem ']' (by decide)) long text
  exact free

/-- Cleaning makes no token: it only writes blanks. -/
theorem map_clean_free {text : List Char} (free : ¬token <:+: text) : ¬token <:+: text.map clean := by
  rintro ⟨before, behind, split⟩
  rw [eq_comm, List.map_eq_append_iff] at split
  obtain ⟨front, rest, rfl, split, -⟩ := split
  obtain ⟨first, inside, rfl, -, cleaned⟩ := List.map_eq_append_iff.mp split
  apply free
  have same : inside = token := by
    rw [← cleaned, List.map_congr_left, List.map_id']
    intro char member
    have kept : clean char ∈ token := cleaned ▸ List.mem_map_of_mem member
    unfold clean at kept ⊢
    split_ifs at kept ⊢
    · exact absurd kept (accepted.notMem ' ' (by decide))
    · rfl
  exact ⟨first, rest, by rw [same]⟩

theorem requestDetail_free (detail : List Char) : ¬token <:+: requestDetail (some token) detail := by
  intro inside
  apply map_clean_free accepted (redact_free accepted detail)
  apply inside.trans
  apply (List.take_prefix _ _).isInfix.trans
  exact (List.rdropWhile_prefix _ _).isInfix.trans (List.dropWhile_suffix _).isInfix

/-- The two orders agree unless a token starts in front of a cut. -/
theorem apiText_eq_iff (joined : List Char) :
    apiText token joined = redactedFirst token joined ↔
      joined.length ≤ 1000 ∨ ∀ i < 1000, ¬token <+: joined.drop i :=
  replaceAll_take_iff (accepted.notMem '[' (by decide)) accepted.ne_nil
    (lt_of_lt_of_le (by decide) accepted.long) 1000 joined

end Accepted

/-- The last answer is one of `request`, so its detail is free of the token. -/
theorem lastResponse_free {token : List Char} (accepted : AcceptedToken token) (get : Bool) (transfers : ℕ → Transfer) :
    ¬token <:+: (lastResponse get fun attempt => request (some token) (transfers attempt)).detail := by
  unfold lastResponse
  simp only
  split_ifs
  all_goals exact requestDetail_free accepted _

/-- The diagnostic is free of the token and, like the errors, that of redacting first, unless the joined
messages are reported, longer than 1000 bytes, and have the token start in their first 1000. -/
theorem client_redacts_iff (parse : List Char → Option Envelope) (input : Option SettingsInput) (previous : Option String)
    (accepted : Settings) (scope : Option Scope) (get : Bool) (transfers : ℕ → Transfer)
    (ok : settings input previous = .ok accepted) :
    let token := accepted.apiToken.toList
    let response := lastResponse get fun attempt => request (some token) (transfers attempt)
    (¬token <:+: response.detail ∧ response = redactedFirstLast token get transfers ∧
      client parse token scope get transfers =
        clientFailure parse redactedFirst token scope (redactedFirstLast token get transfers)) ↔
      ∀ joined, reported parse response = some joined →
        joined.length ≤ 1000 ∨ ∀ i < 1000, ¬token <+: joined.drop i := by
  intro token response
  have valid := settings_token ok
  have same : response = redactedFirstLast token get transfers := by
    simp only [response, redactedFirstLast, request_eq]
  rw [and_iff_right (lastResponse_free valid get transfers), and_iff_right same, ← same]
  apply clientFailure_eq_iff.trans
  exact forall₂_congr fun joined _ => apiText_eq_iff valid joined

/-! ## A refused request -/

def refusalFront : String := "\x7b\"success\":false,\"errors\":[\x7b\"message\":\""

/-- The body of an answer with one error; `message` needs no escapes. -/
def refusal (message : List Char) : List Char := refusalFront.toList ++ message ++ "\"\x7d]\x7d".toList

/-- The parser on that body. -/
def parseRefusal (message body : List Char) : Option Envelope :=
  if body = refusal message then some { success := false, errors := [some (String.ofList message)] } else none

/-- The run of curl that gets that body with status 400. -/
def refusedTransfer (message : List Char) : Transfer :=
  { output := refusal message ++ ['\n', '4', '0', '0'], stderr := [], exitCode := 0 }

theorem length_refusedTransfer (message : List Char) :
    (refusedTransfer message).output.length = refusalFront.toList.length + message.length + 8 := by
  simp only [refusedTransfer, refusal, List.length_append]
  rfl

theorem reported_refusal {message : List Char} (short : message.length ≤ 2000) (token : Option (List Char)) :
    reported (parseRefusal message) (lastResponse false fun _ => request token (refusedTransfer message)) =
      some message := by
  have split : splitStatus (refusal message ++ ['\n', '4', '0', '0']) = (refusal message, 400) := by
    simp [splitStatus]
  have answer : lastResponse false (fun _ => request token (refusedTransfer message)) =
      request token (refusedTransfer message) := rfl
  have received : (request token (refusedTransfer message)).body = refusal message ∧
      (request token (refusedTransfer message)).status = 400 ∧ (request token (refusedTransfer message)).code = 0 := by
    have whole : (refusedTransfer message).output.length ≤ 2097152 := by
      have front : refusalFront.toList.length = 39 := by decide
      rw [length_refusedTransfer, front]
      omega
    simp only [request, executed, readOutput, if_pos whole]
    simp only [refusedTransfer, split, and_self]
  obtain ⟨body, status, code⟩ := received
  rw [answer, reported, body, status, code, if_neg (by decide), parseRefusal, if_pos rfl]
  simp [failedStatus, joinedMessages]

def sampleInput : SettingsInput := { hostname := some "abc.example.com", apiToken := some "test-token-0123456789" }

def sampleSettings : Settings := { hostname := "abc.example.com", apiToken := "test-token-0123456789" }

theorem settings_sampleInput : settings (some sampleInput) none = .ok sampleSettings := by decide +kernel

/-- A message that quotes the token. -/
def quoting : List Char := "test-token-0123456789 is revoked".toList

theorem client_redacts_iff_example :
    let token := sampleSettings.apiToken.toList
    let response := lastResponse false fun _ => request (some token) (refusedTransfer quoting)
    ¬token <:+: response.detail ∧ response = redactedFirstLast token false (fun _ => refusedTransfer quoting) ∧
      client (parseRefusal quoting) token none false (fun _ => refusedTransfer quoting) =
        clientFailure (parseRefusal quoting) redactedFirst token none
          (redactedFirstLast token false fun _ => refusedTransfer quoting) := by
  apply (client_redacts_iff (parseRefusal quoting) (some sampleInput) none sampleSettings none false
    (fun _ => refusedTransfer quoting) settings_sampleInput).mpr
  intro joined reports
  rw [reported_refusal (by decide) _] at reports
  cases reports
  exact Or.inl (by decide)

/-- The token starts at byte 990: the cut leaves ten bytes that are not replaced. -/
theorem client_reveals_token_start :
    ¬∀ (parse : List Char → Option Envelope) (input : Option SettingsInput) (previous : Option String)
      (accepted : Settings) (scope : Option Scope) (get : Bool) (transfers : ℕ → Transfer),
      settings input previous = .ok accepted →
      client parse accepted.apiToken.toList scope get transfers =
        clientFailure parse redactedFirst accepted.apiToken.toList scope
          (lastResponse get fun attempt => request (some accepted.apiToken.toList) (transfers attempt)) := by
  intro all
  have token : sampleSettings.apiToken.toList.length = 21 := by decide
  have message : (List.replicate 990 'x' ++ sampleSettings.apiToken.toList).length = 1011 := by
    rw [List.length_append, List.length_replicate, token]
  have same := all (parseRefusal (List.replicate 990 'x' ++ sampleSettings.apiToken.toList)) _ _ sampleSettings none false
    (fun _ => refusedTransfer (List.replicate 990 'x' ++ sampleSettings.apiToken.toList)) settings_sampleInput
  have reports := reported_refusal (message.trans_le (by decide)) (some sampleSettings.apiToken.toList)
  have agree := clientFailure_eq_iff.mp same _ reports
  rcases (apiText_eq_iff (settings_token settings_sampleInput) _).mp agree with short | none
  · rw [message] at short
    exact absurd short (by decide)
  · apply none 990 (by decide)
    rw [List.drop_left' List.length_replicate]

end XWrt.CloudflareTunnel
