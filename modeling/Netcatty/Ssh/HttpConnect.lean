import Netcatty.Library.UriHost
import Netcatty.Ssh.ProxyCommand
import Netcatty.Ssh.Socks5

/-! # HTTP proxies

The client of an HTTP proxy asks for a tunnel to a host and a port.  The request has no line that
the host, the user name or the password could have put there, and the response is read to its first
empty line and not beyond.  Two slips are left (`httpConnect_exact_iff`): an IPv6 address is written
without brackets, and a status that only begins with 200 is taken for 200. -/

namespace Netcatty.Ssh

open Duplex
open Duplex.Session
open Serial (encodeUtf8 encodeUtf8_inj)
open UriHost (Denotes IsUriHost authorityText)

def maxHttpProxyHeaderBytes : ℕ := 32 * 1024

/-! ### The client -/

/-- The characters of base 64. -/
def isBase64 (c : Char) : Bool := c.isAlphanum || "+/=".toList.contains c

/-- An encoder for credentials. -/
structure Base64Engine where
  encode : Bytes → Text
  alphabet : ∀ bytes, ∀ c ∈ encode bytes, isBase64 c = true

def base64Alphabet : Text :=
  "ABCDEFGHIJKLMNOPQRSTUVWXYZabcdefghijklmnopqrstuvwxyz0123456789+/".toList

def base64Char (value : ℕ) : Char := base64Alphabet.getD (value % 64) '='

def base64Encode : Bytes → Text
  | a :: b :: c :: rest =>
      let value := 65536 * a.toNat + 256 * b.toNat + c.toNat
      base64Char (value / 262144) :: base64Char (value / 4096) :: base64Char (value / 64) ::
        base64Char value :: base64Encode rest
  | [a, b] =>
      let value := 1024 * a.toNat + 4 * b.toNat
      [base64Char (value / 4096), base64Char (value / 64), base64Char value, '=']
  | [a] =>
      let value := 16 * a.toNat
      [base64Char (value / 64), base64Char value, '=', '=']
  | [] => []

example : base64Encode [0x75, 0x3a, 0x70, 0x77] = "dTpwdw==".toList := by decide

theorem isBase64_base64Char (value : ℕ) : isBase64 (base64Char value) = true := by
  have hall : ∀ c ∈ base64Alphabet, isBase64 c = true := List.all_eq_true.mp (by decide)
  rw [base64Char, List.getD_eq_getElem?_getD]
  cases h : base64Alphabet[value % 64]? with
  | none => decide
  | some c => exact hall c (List.mem_of_getElem? h)

/-- Base 64 with padding. -/
def standardBase64 : Base64Engine where
  encode := base64Encode
  alphabet bytes := by
    fun_induction base64Encode bytes with
    | case1 a b c rest value ih =>
        simpa only [List.forall_mem_cons, isBase64_base64Char, true_and] using ih
    | case2 a b value =>
        simp only [List.forall_mem_cons, isBase64_base64Char, true_and]
        exact ⟨by decide, fun _ h => nomatch h⟩
    | case3 a value =>
        simp only [List.forall_mem_cons, isBase64_base64Char, true_and]
        exact ⟨by decide, by decide, fun _ h => nomatch h⟩
    | case4 => exact fun _ h => nomatch h

def isLineBreak (c : Char) : Bool := c = '\r' || c = '\n'

def crlf : Text := ['\r', '\n']

def validateHttpToken (value : Text) : ByteSession TransportError Unit :=
  failWhen (value.isEmpty || value.any isLineBreak) proxyFailed

def connectLines (targetHost port : Text) : Text :=
  "CONNECT ".toList ++ targetHost ++ ":".toList ++ port ++ " HTTP/1.1".toList ++ crlf ++
    "Host: ".toList ++ targetHost ++ ":".toList ++ port ++ crlf

/-- The line with the credentials, where there are any. -/
def proxyAuthorization (engine : Base64Engine) (proxy : NormalizedProxyConfig)
    (password : Option String) : ByteSession TransportError Text :=
  match proxy.username, password with
  | some username, some password =>
      if username.toList.any isLineBreak then fail proxyFailed
      else pure ("Proxy-Authorization: Basic ".toList ++
        engine.encode (encodeUtf8 (username.toList ++ ":".toList ++ password.toList)) ++ crlf)
  | _, _ => pure []

def headerEnd : Bytes := [13, 10, 13, 10]

/-- The loop that reads the header, one byte at a time. -/
def readHeaderFrom : ℕ → Bytes → ByteSession TransportError Bytes
  | 0, header => pure header
  | remaining + 1, header => do
      let byte ← readExact 1
      if headerEnd <:+ header ++ byte then pure (header ++ byte)
      else readHeaderFrom remaining (header ++ byte)

/-- The first line of a header, with the carriage return at its end. -/
def statusLine (header : Bytes) : Bytes := header.takeWhile (· ≠ 10)

def acceptedStatuses : List Bytes :=
  [encodeUtf8 "HTTP/1.1 200".toList, encodeUtf8 "HTTP/1.0 200".toList]

def acceptsStatus (header : Bytes) : Bool :=
  acceptedStatuses.any fun status => status.isPrefixOf (statusLine header)

/-- The second half of `httpConnect`, behind the request. -/
def readConnectResponse : ByteSession TransportError Unit := do
  let header ← readHeaderFrom maxHttpProxyHeaderBytes []
  failWhen (!headerEnd.isSuffixOf header) proxyFailed
  failWhen (!acceptsStatus header) proxyFailed

def httpConnect (engine : Base64Engine) (proxy : NormalizedProxyConfig) (targetHost : Text)
    (targetPort : UInt16) (password : Option String) : ByteSession TransportError Unit := do
  validateHttpToken targetHost
  let authorization ← proxyAuthorization engine proxy password
  writeAll (encodeUtf8 (connectLines targetHost (portText targetPort) ++ authorization ++ crlf))
  readConnectResponse

/-! ### Requests and responses -/

/-- The head of a message: its lines, and an empty line. -/
def headText (lines : List Text) : Text := lines.flatMap (· ++ crlf) ++ crlf

/-- The request line, the host and at most one line with credentials. -/
def connectHeadLines (authority : Text) (credentials : Option Text) : List Text :=
  ("CONNECT ".toList ++ authority ++ " HTTP/1.1".toList) :: ("Host: ".toList ++ authority) ::
    (credentials.map ("Proxy-Authorization: ".toList ++ ·)).toList

/-- The head of a request for a tunnel to a host and a port. -/
def IsConnectHead (host port head : Text) : Prop :=
  ∃ authority credentials, Denotes host port authority ∧
    (∀ line ∈ connectHeadLines authority credentials, line.any isLineBreak = false) ∧
      head = headText (connectHeadLines authority credentials)

/-- The head of a stream, to its first empty line. -/
structure IsHeader (stream header : Bytes) : Prop where
  front : header <+: stream
  ended : headerEnd <:+ header
  first : ∀ earlier, earlier <+: header → headerEnd <:+ earlier → earlier = header

/-- A line without the carriage return at its end. -/
def withoutReturn (line : Bytes) : Bytes := if line.getLast? = some 13 then line.dropLast else line

/-- What is between the first and the second blank of the first line. -/
def statusCode (header : Bytes) : Bytes :=
  (((withoutReturn (statusLine header)).dropWhile (· ≠ 32)).drop 1).takeWhile (· ≠ 32)

/-- A status that goes on behind the 200. -/
def LongerStatus (header : Bytes) : Prop :=
  ∃ status ∈ acceptedStatuses, ∃ c rest, c ≠ 32 ∧
    withoutReturn (statusLine header) = status ++ c :: rest

/-- What is called for of a handshake: of what is written, the result and what is left of a
stream. -/
structure HandshakeExact (host : Text) (port : UInt16) (stream : Bytes)
    (outcome : Bytes × Except TransportError Unit × Bytes) : Prop where
  request : outcome.1 = [] ∨
    ∃ head, outcome.1 = encodeUtf8 head ∧ IsConnectHead host (portText port) head
  response : outcome.2.1 = .ok () → ∃ header, IsHeader stream header ∧
    header.length ≤ maxHttpProxyHeaderBytes ∧ statusCode header = encodeUtf8 "200".toList ∧
      stream = header ++ outcome.2.2

/-- What is refused before anything is written. -/
def Refused (proxy : NormalizedProxyConfig) (targetHost : Text) (password : Option String) : Prop :=
  targetHost = [] ∨ targetHost.any isLineBreak ∨
    password.isSome ∧ ∃ username, proxy.username = some username ∧ username.toList.any isLineBreak

/-! ### The loop -/

theorem readHeaderFrom_succ (remaining : ℕ) (header : Bytes) :
    readHeaderFrom (remaining + 1) header = receive 1 fun byte =>
      if headerEnd <:+ header ++ byte then pure (header ++ byte)
      else readHeaderFrom remaining (header ++ byte) := rfl

/-- A header within the limit is read, and nothing behind it. -/
theorem run_readHeaderFrom_of_isHeader (eof : TransportError) {remaining : ℕ} {start more : Bytes}
    (rest : Bytes) (hne : more ≠ []) (hlength : more.length ≤ remaining)
    (hended : headerEnd <:+ start ++ more)
    (hfirst : ∀ earlier, earlier <+: more → earlier ≠ [] → headerEnd <:+ start ++ earlier →
      earlier = more) :
    (readHeaderFrom remaining start).run eof (more ++ rest) = ([], .ok (start ++ more), rest) := by
  induction remaining generalizing start more with
  | zero => exact absurd (List.eq_nil_of_length_eq_zero (Nat.le_zero.mp hlength)) hne
  | succ remaining ih =>
      obtain ⟨byte, more, rfl⟩ := List.exists_cons_of_ne_nil hne
      rw [readHeaderFrom_succ, run, if_pos (by simp)]
      have htake : (byte :: more ++ rest).take 1 = [byte] := rfl
      have hdrop : (byte :: more ++ rest).drop 1 = more ++ rest := rfl
      rw [htake, hdrop]
      by_cases hend : headerEnd <:+ start ++ [byte]
      · have hnil : [byte] = byte :: more :=
          hfirst [byte] ⟨more, rfl⟩ (List.cons_ne_nil _ _) hend
        obtain rfl : [] = more := List.tail_eq_of_cons_eq hnil
        rw [if_pos hend]
        rfl
      · rw [if_neg hend]
        have happend : start ++ byte :: more = start ++ [byte] ++ more := by
          rw [List.append_assoc]
          rfl
        rw [happend] at hended ⊢
        refine ih ?_ (Nat.le_of_succ_le_succ hlength) hended ?_
        · rintro rfl
          rw [List.append_nil] at hended
          exact hend hended
        · intro earlier hearlier _ hsuffix
          have hcons : byte :: earlier = byte :: more := by
            refine hfirst _ ?_ (List.cons_ne_nil _ _) ?_
            · exact (List.cons_prefix_cons).mpr ⟨rfl, hearlier⟩
            · rwa [List.append_assoc] at hsuffix
          exact List.tail_eq_of_cons_eq hcons

/-- What the loop has read when it ends. -/
theorem run_readHeaderFrom_ok {eof : TransportError} {remaining : ℕ} {start stream : Bytes}
    {output header rest : Bytes}
    (h : (readHeaderFrom remaining start).run eof stream = (output, .ok header, rest)) :
    ∃ more, output = [] ∧ header = start ++ more ∧ stream = more ++ rest ∧
      more.length ≤ remaining ∧
        ∀ earlier, earlier <+: more → earlier ≠ [] → headerEnd <:+ start ++ earlier →
          earlier = more := by
  induction remaining generalizing start stream with
  | zero =>
      obtain ⟨houtput, hresult⟩ := Prod.mk.inj h
      obtain ⟨hheader, hrest⟩ := Prod.mk.inj hresult
      refine ⟨[], houtput.symm, ?_, hrest, Nat.le_refl 0, ?_⟩
      · rw [List.append_nil]
        exact (Except.ok.inj hheader).symm
      · intro earlier hearlier hne _
        exact absurd (List.prefix_nil.mp hearlier) hne
  | succ remaining ih =>
      rw [readHeaderFrom_succ] at h
      cases stream with
      | nil => nomatch h
      | cons byte stream =>
          rw [run, if_pos (by simp)] at h
          have htake : (byte :: stream).take 1 = [byte] := rfl
          rw [htake, List.drop_one, List.tail_cons] at h
          by_cases hend : headerEnd <:+ start ++ [byte]
          · rw [if_pos hend] at h
            obtain ⟨houtput, hresult⟩ := Prod.mk.inj h
            obtain ⟨hheader, hrest⟩ := Prod.mk.inj hresult
            refine ⟨[byte], houtput.symm, (Except.ok.inj hheader).symm, ?_, by simp, ?_⟩
            · rw [hrest]
              rfl
            · intro earlier hearlier hne _
              refine hearlier.eq_of_length_le ?_
              exact List.length_pos_of_ne_nil hne
          · rw [if_neg hend] at h
            obtain ⟨more, houtput, hheader, hstream, hlength, hfirst⟩ := ih h
            refine ⟨byte :: more, houtput, ?_, ?_, Nat.succ_le_succ hlength, ?_⟩
            · rw [hheader, List.append_assoc]
              rfl
            · rw [hstream]
              rfl
            · intro earlier hearlier hne hsuffix
              cases earlier with
              | nil => exact absurd rfl hne
              | cons first earlier =>
                  obtain ⟨rfl, hfront⟩ := List.cons_prefix_cons.mp hearlier
                  by_cases hnil : earlier = []
                  · rw [hnil] at hsuffix
                    exact absurd hsuffix hend
                  · rw [hfirst earlier hfront hnil (by rwa [List.append_assoc])]

/-! ### The response -/

/-- Nothing is written behind the request. -/
theorem run_readConnectResponse_silent (eof : TransportError) (stream : Bytes) :
    (readConnectResponse.run eof stream).1 = [] := by
  have hloop : ∀ (remaining : ℕ) (start stream : Bytes),
      ((readHeaderFrom remaining start).run eof stream).1 = [] := by
    intro remaining
    induction remaining with
    | zero => exact fun _ _ => rfl
    | succ remaining ih =>
        intro start stream
        rw [readHeaderFrom_succ, run]
        split_ifs
        · rfl
        · exact ih _ _
        · rfl
  rw [readConnectResponse, run_bind]
  have hread := hloop maxHttpProxyHeaderBytes [] stream
  rcases hresult : (readHeaderFrom maxHttpProxyHeaderBytes []).run eof stream with
    ⟨output, error | header, rest⟩
  · rw [hresult] at hread
    exact hread
  · rw [hresult] at hread
    obtain rfl : output = [] := hread
    dsimp only
    cases headerEnd.isSuffixOf header with
    | false => rfl
    | true => cases acceptsStatus header <;> rfl

theorem IsHeader.ne_nil {stream header : Bytes} (h : IsHeader stream header) : header ≠ [] := by
  rintro rfl
  have hlength := h.ended.length_le
  exact absurd hlength (by decide)

/-- **The response is read to its first empty line**, within the limit, or the call fails. -/
theorem run_readConnectResponse_ok_iff (eof : TransportError) (stream output rest : Bytes) :
    readConnectResponse.run eof stream = (output, .ok (), rest) ↔
      output = [] ∧ ∃ header, IsHeader stream header ∧ header.length ≤ maxHttpProxyHeaderBytes ∧
        acceptsStatus header = true ∧ stream = header ++ rest := by
  rw [readConnectResponse, run_bind]
  constructor
  · intro h
    rcases hread : (readHeaderFrom maxHttpProxyHeaderBytes []).run eof stream with
      ⟨written, error | header, rest'⟩
    · rw [hread] at h
      nomatch h
    · rw [hread] at h
      obtain ⟨more, rfl, rfl, hstream, hlength, hfirst⟩ := run_readHeaderFrom_ok hread
      simp only [List.nil_append] at h hfirst
      cases hended : headerEnd.isSuffixOf header with
      | false =>
          rw [hended] at h
          nomatch h
      | true =>
          cases haccepts : acceptsStatus header with
          | false =>
              rw [hended, haccepts] at h
              nomatch h
          | true =>
              rw [hended, haccepts] at h
              obtain ⟨rfl, hresult⟩ := Prod.mk.inj h
              obtain ⟨-, rfl⟩ := Prod.mk.inj hresult
              refine ⟨rfl, header, ⟨⟨rest', hstream.symm⟩, ?_, ?_⟩, hlength, haccepts, hstream⟩
              · exact List.isSuffixOf_iff_suffix.mp hended
              · intro earlier hearlier hsuffix
                refine hfirst earlier hearlier ?_ hsuffix
                rintro rfl
                exact absurd hsuffix.length_le (by decide)
  · rintro ⟨rfl, header, hheader, hlength, haccepts, rfl⟩
    have hread : (readHeaderFrom maxHttpProxyHeaderBytes []).run eof (header ++ rest) =
        ([], .ok ([] ++ header), rest) :=
      run_readHeaderFrom_of_isHeader eof rest hheader.ne_nil hlength hheader.ended
        fun earlier hearlier _ hsuffix => hheader.first earlier hearlier hsuffix
    rw [hread]
    simp only [List.nil_append, List.isSuffixOf_iff_suffix.mpr hheader.ended, haccepts,
      Bool.not_true, failWhen_false]
    rfl

theorem takeWhile_eq_nil_iff_head {c : UInt8} (l : Bytes) :
    l.takeWhile (· ≠ c) = [] ↔ ¬∃ first rest, first ≠ c ∧ l = first :: rest := by
  cases l with
  | nil => simp
  | cons first rest =>
      by_cases h : first = c
      · simp [h]
      · simp [h]

/-- The return at the end of a line is not in an accepted status. -/
theorem withoutReturn_append {status : Bytes} (hstatus : status ∈ acceptedStatuses) (more : Bytes) :
    withoutReturn (status ++ more) = status ++ withoutReturn more := by
  cases more with
  | nil =>
      have hlast : withoutReturn status = status := by
        revert status
        decide
      show withoutReturn (status ++ []) = status ++ []
      rw [List.append_nil, hlast]
  | cons c more =>
      have hne : c :: more ≠ [] := List.cons_ne_nil _ _
      rw [withoutReturn, withoutReturn, List.getLast?_append_of_ne_nil _ hne,
        List.dropLast_append_of_ne_nil hne]
      split_ifs <;> rfl

/-- **The code of an accepted status is 200** where the status ends behind it. -/
theorem statusCode_eq_iff {header : Bytes} (h : acceptsStatus header = true) :
    statusCode header = encodeUtf8 "200".toList ↔ ¬LongerStatus header := by
  obtain ⟨status, hstatus, hprefix⟩ := List.any_eq_true.mp h
  obtain ⟨more, hmore⟩ := List.isPrefixOf_iff_prefix.mp hprefix
  have hline : withoutReturn (statusLine header) = status ++ withoutReturn more := by
    rw [← hmore, withoutReturn_append hstatus]
  have hcode : statusCode header =
      encodeUtf8 "200".toList ++ (withoutReturn more).takeWhile (· ≠ 32) := by
    rw [statusCode, hline]
    obtain rfl | rfl : status = _ ∨ status = _ := by simpa [acceptedStatuses] using hstatus
    · rfl
    · rfl
  rw [hcode, List.append_right_eq_self, takeWhile_eq_nil_iff_head, not_iff_not]
  constructor
  · rintro ⟨c, rest, hc, hrest⟩
    exact ⟨status, hstatus, c, rest, hc, by rw [hline, hrest]⟩
  · rintro ⟨status', hstatus', c, rest, hc, hother⟩
    have hlength : ∀ s ∈ acceptedStatuses, s.length = 12 := by decide
    rw [hline] at hother
    obtain ⟨-, hrest⟩ := List.append_inj hother (by rw [hlength _ hstatus, hlength _ hstatus'])
    exact ⟨c, rest, hc, hrest⟩

theorem LongerStatus.acceptsStatus {header : Bytes} (h : LongerStatus header) :
    acceptsStatus header = true := by
  obtain ⟨status, hstatus, c, rest, -, hline⟩ := h
  refine List.any_eq_true.mpr ⟨status, hstatus, List.isPrefixOf_iff_prefix.mpr ?_⟩
  have hfront : withoutReturn (statusLine header) <+: statusLine header := by
    unfold withoutReturn
    split_ifs
    · exact List.dropLast_prefix _
    · exact List.prefix_refl _
  rw [hline] at hfront
  exact (List.prefix_append _ _).trans hfront

/-! ### The request -/

/-- The line with the credentials, and its end. -/
def credentialsLine (credentials : Option Text) : Text :=
  (credentials.map fun value => "Proxy-Authorization: ".toList ++ value ++ crlf).getD []

theorem isLineBreak_of_isBase64 {c : Char} (h : isBase64 c = true) : isLineBreak c = false := by
  by_contra hbreak
  rw [Bool.not_eq_false, isLineBreak, Bool.or_eq_true, decide_eq_true_eq,
    decide_eq_true_eq] at hbreak
  obtain rfl | rfl := hbreak
  · nomatch h
  · nomatch h

/-- The credentials have no line breaks. -/
theorem proxyAuthorization_eq (engine : Base64Engine) {proxy : NormalizedProxyConfig}
    {password : Option String}
    (h : ¬(password.isSome ∧ ∃ username, proxy.username = some username ∧
      username.toList.any isLineBreak)) :
    ∃ credentials : Option Text,
      proxyAuthorization engine proxy password = pure (credentialsLine credentials) ∧
        ∀ value ∈ credentials, value.any isLineBreak = false := by
  unfold proxyAuthorization
  split
  next username password husername =>
      have hclean : ¬username.toList.any isLineBreak = true := fun hbreak =>
        h ⟨rfl, username, husername, hbreak⟩
      rw [if_neg hclean]
      refine ⟨some ("Basic ".toList ++ engine.encode (encodeUtf8
        (username.toList ++ ":".toList ++ password.toList))), rfl, ?_⟩
      rintro value hvalue
      obtain rfl := Option.some.inj hvalue
      rw [List.any_append, Bool.or_eq_false_iff]
      refine ⟨by decide, List.any_eq_false.mpr fun c hc => ?_⟩
      rw [isLineBreak_of_isBase64 (engine.alphabet _ c hc)]
      exact Bool.false_ne_true
  next => exact ⟨none, rfl, fun value hvalue => nomatch hvalue⟩

theorem return_notMem {line : Text} (h : line.any isLineBreak = false) : '\r' ∉ line := fun hmem =>
  List.any_eq_false.mp h _ hmem rfl

theorem headText_cons (line : Text) (lines : List Text) :
    headText (line :: lines) = line ++ '\r' :: '\n' :: headText lines := by
  rw [headText, List.flatMap_cons, List.append_assoc, List.append_assoc]
  rfl

/-- The first line of a head is the text before its first return. -/
theorem firstLine_inj {line line' : Text} {lines lines' : List Text}
    (hline : line.any isLineBreak = false) (hline' : line'.any isLineBreak = false)
    (h : headText (line :: lines) = headText (line' :: lines')) : line = line' := by
  rw [headText_cons, headText_cons] at h
  refine (Words.line_prefix_iff (return_notMem hline) (return_notMem hline')
    ('\n' :: headText lines')).mp ?_
  rw [← h]
  refine ⟨'\n' :: headText lines, ?_⟩
  rw [List.append_assoc]
  rfl

theorem request_eq_headText (host port : Text) (credentials : Option Text) :
    connectLines host port ++ credentialsLine credentials ++ crlf =
      headText (connectHeadLines (authorityText host port) credentials) := by
  have hcolon : ":".toList = [':'] := rfl
  unfold connectLines credentialsLine headText connectHeadLines authorityText
  rw [hcolon]
  generalize "CONNECT ".toList = connect
  generalize " HTTP/1.1".toList = version
  generalize "Host: ".toList = hostField
  generalize "Proxy-Authorization: ".toList = authorizationField
  cases credentials with
  | none => simp
  | some value => simp

/-- **The request asks for the host as it stands**, so it is right where that is a host of a URI. -/
theorem isConnectHead_iff {host port : Text} (hhost : host.any isLineBreak = false)
    (hport : port.any isLineBreak = false) {credentials : Option Text}
    (hcredentials : ∀ value ∈ credentials, value.any isLineBreak = false) :
    IsConnectHead host port (connectLines host port ++ credentialsLine credentials ++ crlf) ↔
      IsUriHost host := by
  have hclean : (authorityText host port).any isLineBreak = false := by
    rw [authorityText, List.any_append, List.any_cons, hhost, hport]
    rfl
  have hlines : ∀ line ∈ connectHeadLines (authorityText host port) credentials,
      line.any isLineBreak = false := by
    intro line hline
    rw [connectHeadLines, List.mem_cons, List.mem_cons] at hline
    obtain rfl | rfl | hvalue := hline
    · rw [List.any_append, List.any_append, hclean]
      decide
    · rw [List.any_append, hclean]
      decide
    · obtain ⟨value, hsome, rfl⟩ := Option.map_eq_some_iff.mp (Option.mem_toList.mp hvalue)
      rw [List.any_append, hcredentials value hsome]
      decide
  rw [request_eq_headText]
  constructor
  · rintro ⟨authority, other, hdenotes, hother, hhead⟩
    have hline := firstLine_inj (hlines _ List.mem_cons_self) (hother _ List.mem_cons_self) hhead
    have hsame : authorityText host port = authority :=
      List.append_cancel_left (List.append_cancel_right hline)
    rw [← hsame] at hdenotes
    exact (UriHost.denotes_plain_iff host port).mp hdenotes
  · intro huri
    exact ⟨authorityText host port, credentials, (UriHost.denotes_plain_iff host port).mpr huri,
      hlines, rfl⟩

/-! ### The handshake -/

theorem run_httpConnect_refused (engine : Base64Engine) {proxy : NormalizedProxyConfig}
    {targetHost : Text} (targetPort : UInt16) {password : Option String}
    (h : Refused proxy targetHost password) (eof : TransportError) (stream : Bytes) :
    (httpConnect engine proxy targetHost targetPort password).run eof stream =
      ([], .error proxyFailed, stream) := by
  rw [httpConnect, validateHttpToken]
  cases hhost : targetHost.isEmpty || targetHost.any isLineBreak with
  | true => rfl
  | false =>
      rw [Bool.or_eq_false_iff] at hhost
      obtain hnil | hbreak | ⟨hpassword, username, husername, hbreak⟩ := h
      · rw [hnil] at hhost
        nomatch hhost.1
      · rw [hhost.2] at hbreak
        nomatch hbreak
      · obtain ⟨password, rfl⟩ := Option.isSome_iff_exists.mp hpassword
        unfold proxyAuthorization
        simp only [husername, hbreak, if_true]
        rfl

theorem run_httpConnect (engine : Base64Engine) {proxy : NormalizedProxyConfig} {targetHost : Text}
    (targetPort : UInt16) {password : Option String} (h : ¬Refused proxy targetHost password)
    (eof : TransportError) (stream : Bytes) :
    ∃ credentials : Option Text, (∀ value ∈ credentials, value.any isLineBreak = false) ∧
      (httpConnect engine proxy targetHost targetPort password).run eof stream =
        (encodeUtf8 (connectLines targetHost (portText targetPort) ++
            credentialsLine credentials ++ crlf) ++ (readConnectResponse.run eof stream).1,
          (readConnectResponse.run eof stream).2) := by
  rw [Refused, not_or, not_or] at h
  obtain ⟨hne, hbreak, hcredentials⟩ := h
  obtain ⟨credentials, hline, hclean⟩ := proxyAuthorization_eq engine hcredentials
  refine ⟨credentials, hclean, ?_⟩
  have hvalid : (targetHost.isEmpty || targetHost.any isLineBreak) = false := by
    rw [Bool.or_eq_false_iff]
    exact ⟨List.isEmpty_eq_false_iff.mpr hne, Bool.not_eq_true _ ▸ hbreak⟩
  rw [httpConnect, validateHttpToken, hvalid, hline]
  rfl

theorem portText_clean (port : UInt16) : (portText port).any isLineBreak = false := by
  refine List.any_eq_false.mpr fun c hc => ?_
  have hplain := (portText_isPlainWord port).2 c hc
  rw [Bool.not_eq_true, isLineBreak, Bool.or_eq_false_iff, decide_eq_false_iff_not,
    decide_eq_false_iff_not]
  constructor
  · rintro rfl
    nomatch hplain
  · rintro rfl
    nomatch hplain

theorem IsHeader.unique {stream header header' : Bytes} (h : IsHeader stream header)
    (h' : IsHeader stream header') : header = header' := by
  obtain hfront | hfront := List.prefix_or_prefix_of_prefix h.front h'.front
  · exact h'.first header hfront h.ended
  · exact (h.first header' hfront h'.ended).symm

/-- A handshake that is not refused, over the whole stream. -/
theorem httpConnect_exact_of_not_refused (engine : Base64Engine) {proxy : NormalizedProxyConfig}
    {targetHost : Text} (targetPort : UInt16) {password : Option String}
    (h : ¬Refused proxy targetHost password) (eof : TransportError) (stream : Bytes) :
    HandshakeExact targetHost targetPort stream
        ((httpConnect engine proxy targetHost targetPort password).run eof stream) ↔
      IsUriHost targetHost ∧ ∀ header, IsHeader stream header →
        header.length ≤ maxHttpProxyHeaderBytes → ¬LongerStatus header := by
  obtain ⟨credentials, hclean, hrun⟩ := run_httpConnect engine targetPort h eof stream
  have hhost : targetHost.any isLineBreak = false := by
    by_contra hbreak
    exact h (.inr (.inl (Bool.not_eq_false _ ▸ hbreak)))
  have hrequest := isConnectHead_iff hhost (portText_clean targetPort) hclean
  have hread := run_readConnectResponse_ok_iff eof stream
  rw [hrun, run_readConnectResponse_silent, List.append_nil]
  constructor
  · intro hexact
    constructor
    · obtain hnil | ⟨head, hhead, hconnect⟩ := hexact.request
      · have htext : connectLines targetHost (portText targetPort) ++ credentialsLine credentials ++
            crlf = [] := encodeUtf8_inj hnil
        exact absurd htext (List.append_ne_nil_of_right_ne_nil _ (List.cons_ne_nil _ _))
      · rw [encodeUtf8_inj hhead] at hrequest
        exact hrequest.mp hconnect
    · intro header hheader hlength hlonger
      obtain ⟨rest, rfl⟩ := hheader.front
      have hok := (hread [] rest).mpr ⟨rfl, header, hheader, hlength, hlonger.acceptsStatus, rfl⟩
      obtain ⟨header', hheader', -, hcode, -⟩ := hexact.response (by rw [hok])
      rw [← hheader.unique hheader'] at hcode
      exact (statusCode_eq_iff hlonger.acceptsStatus).mp hcode hlonger
  · rintro ⟨huri, hstatus⟩
    refine ⟨.inr ⟨_, rfl, hrequest.mpr huri⟩, fun hok => ?_⟩
    rcases hresult : readConnectResponse.run eof stream with ⟨output, outcome, rest⟩
    rw [hresult] at hok
    obtain rfl : outcome = .ok () := hok
    obtain ⟨-, header, hheader, hlength, haccepts, hstream⟩ := (hread output rest).mp hresult
    exact ⟨header, hheader, hlength,
      (statusCode_eq_iff haccepts).mpr (hstatus header hheader hlength), hstream⟩

/-- **The handshake is exact** where it is refused, and else where the host as it stands is a host
of a URI and the proxy does not answer with a status that only begins with 200. -/
theorem httpConnect_exact_iff (engine : Base64Engine) (proxy : NormalizedProxyConfig)
    (targetHost : Text) (targetPort : UInt16) (password : Option String) (eof : TransportError)
    (pieces : List Bytes) :
    HandshakeExact targetHost targetPort pieces.flatten
        (((httpConnect engine proxy targetHost targetPort password).runPieces eof pieces).map id
          (Prod.map id List.flatten)) ↔
      Refused proxy targetHost password ∨ (IsUriHost targetHost ∧
        ∀ header, IsHeader pieces.flatten header → header.length ≤ maxHttpProxyHeaderBytes →
          ¬LongerStatus header) := by
  rw [runPieces_flatten]
  by_cases hrefused : Refused proxy targetHost password
  · rw [run_httpConnect_refused engine targetPort hrefused]
    exact iff_of_true ⟨.inl rfl, fun h => nomatch h⟩ (.inl hrefused)
  · rw [httpConnect_exact_of_not_refused engine targetPort hrefused]
    exact (or_iff_right hrefused).symm

/-- An IPv6 address without brackets, and a status that goes on. -/
theorem httpConnect_inexact :
    (normalizeHostname "::1".toList = "::1".toList ∧
      ¬HandshakeExact "::1".toList 22 [] (((httpConnect standardBase64 ⟨none⟩ "::1".toList 22
        none).runPieces proxyFailed []).map id (Prod.map id List.flatten))) ∧
    ¬HandshakeExact "host".toList 22 (encodeUtf8 "HTTP/1.1 2000\r\n\r\n".toList)
      (((httpConnect standardBase64 ⟨none⟩ "host".toList 22 none).runPieces proxyFailed
        [encodeUtf8 "HTTP/1.1 2000\r\n\r\n".toList]).map id (Prod.map id List.flatten)) := by
  have hrefused : ∀ host : Text, host ≠ [] → host.any isLineBreak = false →
      ¬Refused ⟨none⟩ host none := by
    rintro host hne hbreak (hnil | htrue | ⟨hnone, -⟩)
    · exact hne hnil
    · exact absurd htrue (by rw [hbreak]; exact Bool.false_ne_true)
    · nomatch hnone
  refine ⟨⟨by decide, fun h => ?_⟩, fun h => ?_⟩
  · have hexact := (httpConnect_exact_of_not_refused standardBase64 22
      (hrefused "::1".toList (by decide) (by decide)) proxyFailed []).mp
    rw [runPieces_flatten] at h
    exact UriHost.not_isUriHost_of_colon (by decide) (by decide) (hexact h).1
  · have hexact := (httpConnect_exact_of_not_refused standardBase64 22
      (hrefused "host".toList (by decide) (by decide)) proxyFailed
        (encodeUtf8 "HTTP/1.1 2000\r\n\r\n".toList)).mp
    rw [runPieces_flatten, List.flatten_singleton] at h
    refine (hexact h).2 _ ⟨List.prefix_refl _, by decide, ?_⟩ (by decide) ?_
    · intro earlier hearlier
      revert earlier
      simp only [← List.mem_inits]
      decide
    · exact ⟨_, List.mem_cons_self, 48, [], by decide, by decide⟩

end Netcatty.Ssh
