import Mathlib.Data.List.Basic
import Mathlib.Tactic.Common

/-! # Hosts and authorities

The grammar of the host and the port of a URI.  A host is a registered name, which an IPv4 address
is as well, or an IP literal in brackets; the brackets keep the colons of an IPv6 address apart from
the port, so a host that denotes itself never needs them (`denotes_plain_iff`). -/

namespace Netcatty.UriHost

abbrev Chars := List Char

/-! ### Registered names -/

def isUnreserved (c : Char) : Bool := c.isAlphanum || "-._~".toList.contains c

def isSubDelim (c : Char) : Bool := "!$&'()*+,;=".toList.contains c

def isHex (c : Char) : Bool := c.isDigit || "abcdefABCDEF".toList.contains c

/-- A registered name, with octets in hexadecimal after a percent sign. -/
def isRegName : Chars → Bool
  | '%' :: high :: low :: name => isHex high && isHex low && isRegName name
  | c :: name => (isUnreserved c || isSubDelim c) && isRegName name
  | [] => true

/-! ### IP literals -/

/-- A group of an IPv6 address. -/
def isGroup (text : Chars) : Bool := 1 ≤ text.length && text.length ≤ 4 && text.all isHex

/-- A decimal octet, without leading zeros. -/
def isOctet (text : Chars) : Bool :=
  1 ≤ text.length && text.length ≤ 3 && text.all Char.isDigit &&
    (text.length = 1 || text.head? ≠ some '0') &&
      text.foldl (fun value digit => 10 * value + (digit.toNat - '0'.toNat)) 0 ≤ 255

def isIpv4 (text : Chars) : Bool :=
  (text.splitOn '.').length = 4 && (text.splitOn '.').all isOctet

/-- How many groups there are; an IPv4 address at the end stands for two. -/
def groupCount : List Chars → Option ℕ
  | [] => some 0
  | [last] => if isGroup last then some 1 else if isIpv4 last then some 2 else none
  | text :: groups => if isGroup text then (groupCount groups).map (· + 1) else none

def colons (groups : List Chars) : Chars := [':'].intercalate groups

/-- Eight groups, or fewer around a gap. -/
def IsIpv6 (address : Chars) : Prop :=
  (∃ groups, address = colons groups ∧ groupCount groups = some 8) ∨
    ∃ front back, address = colons front ++ [':', ':'] ++ colons back ∧
      (∀ text ∈ front, isGroup text) ∧ ∃ count, groupCount back = some count ∧
        front.length + count ≤ 7

/-- An address of a later version. -/
def IsIpFuture (address : Chars) : Prop :=
  ∃ version rest, address = 'v' :: version ++ '.' :: rest ∧ version ≠ [] ∧ rest ≠ [] ∧
    (∀ c ∈ version, isHex c) ∧ ∀ c ∈ rest, isUnreserved c || isSubDelim c || c == ':'

def bracketed (address : Chars) : Chars := '[' :: address ++ [']']

/-- A host, which is not empty. -/
def IsUriHost (host : Chars) : Prop :=
  (host ≠ [] ∧ isRegName host) ∨ ∃ address, host = bracketed address ∧
    (IsIpv6 address ∨ IsIpFuture address)

/-! ### Authorities -/

def authorityText (host port : Chars) : Chars := host ++ ':' :: port

/-- An authority with a port that denotes a host: the host itself, or an IPv6 address in
brackets. -/
def Denotes (host port authority : Chars) : Prop :=
  ∃ uriHost, IsUriHost uriHost ∧ authority = authorityText uriHost port ∧
    (uriHost = host ∨ IsIpv6 host ∧ uriHost = bracketed host)

/-- The host as it stands is right where it is a host of a URI, and nowhere else. -/
theorem denotes_plain_iff (host port : Chars) :
    Denotes host port (authorityText host port) ↔ IsUriHost host := by
  constructor
  · rintro ⟨uriHost, huri, hauthority, hhost⟩
    have heq : host = uriHost := List.append_cancel_right hauthority
    rwa [heq]
  · intro huri
    exact ⟨host, huri, rfl, .inl rfl⟩

theorem colon_notMem_of_isRegName {name : Chars} (h : isRegName name = true) : ':' ∉ name := by
  fun_induction isRegName name with
  | case1 high low name ih =>
      simp only [Bool.and_eq_true] at h
      obtain ⟨⟨hhigh, hlow⟩, hname⟩ := h
      have hne : ∀ {c : Char}, isHex c = true → ':' ≠ c := by
        rintro c hc rfl
        nomatch hc
      simp only [List.mem_cons, not_or]
      exact ⟨by decide, hne hhigh, hne hlow, ih hname⟩
  | case2 c name _ ih =>
      rw [Bool.and_eq_true] at h
      have hne : ':' ≠ c := by
        rintro rfl
        exact absurd h.1 (by decide)
      exact List.not_mem_cons_of_ne_of_not_mem hne (ih h.2)
  | case3 => exact List.not_mem_nil

/-- A colon is in brackets. -/
theorem not_isUriHost_of_colon {host : Chars} (hcolon : ':' ∈ host)
    (hhead : host.head? ≠ some '[') : ¬IsUriHost host := by
  rintro (⟨-, hname⟩ | ⟨address, rfl, -⟩)
  · exact colon_notMem_of_isRegName hname hcolon
  · exact hhead rfl

end Netcatty.UriHost
