import Netcatty.Library.ShellInsertion
import Netcatty.Vault.Names
import Netcatty.Ssh.TransferPath

/-! # Proxy commands

`substituteProxyCommand` puts the target host and its port, each in single quotes, in place of `%h`
and `%p` in a command that is run by `sh -c`.  The quotes are the same wherever the place is: the
host stands for itself exactly when it fits at each of its places (`substitution_iff`), which any
host does where the command has no quotes open and no backslash before the place. -/

namespace Netcatty.Ssh

open PosixShell
open Serial (isWhitespace)

/-- The first word of what was typed. -/
def normalizeHostname (value : Text) : Text := ((Words.wordsBy isWhitespace value).head?).getD []

/-- The branch for systems with a POSIX shell. -/
def quoteShellArgument (value : Text) : Text :=
  '\'' :: (value.flatMap fun c => if c = '\'' then ['\'', '\\', '\'', '\''] else [c]) ++ ['\'']

/-- The loop over the command. -/
def substituteFrom (quotedHost quotedPort : Text) : Text → Text
  | '%' :: '%' :: rest => '%' :: substituteFrom quotedHost quotedPort rest
  | '%' :: 'h' :: rest => quotedHost ++ substituteFrom quotedHost quotedPort rest
  | '%' :: 'p' :: rest => quotedPort ++ substituteFrom quotedHost quotedPort rest
  | character :: rest => character :: substituteFrom quotedHost quotedPort rest
  | [] => []

def substituteProxyCommand (command targetHost : Text) (targetPort : UInt16) : Text :=
  substituteFrom (quoteShellArgument targetHost)
    (quoteShellArgument (Nat.toDigits 10 targetPort.toNat)) command

/-! ### Origins -/

/-- Where a character of the result comes from. -/
inductive Origin
  | template | quoting | host | port
  deriving DecidableEq, Repr

/-- A part of a command. -/
inductive Piece
  | literal (c : Char) | host | port
  deriving DecidableEq, Repr

def pieces : Text → List Piece
  | '%' :: '%' :: rest => .literal '%' :: pieces rest
  | '%' :: 'h' :: rest => .host :: pieces rest
  | '%' :: 'p' :: rest => .port :: pieces rest
  | c :: rest => .literal c :: pieces rest
  | [] => []

/-- What stands for a part in the result. -/
def Piece.render (host port : Text) : Piece → List (Char × Origin)
  | .literal c => [(c, .template)]
  | .host => inserted .quoting .host host
  | .port => inserted .quoting .port port

def renderPieces (host port : Text) (parts : List Piece) : List (Char × Origin) :=
  parts.flatMap (Piece.render host port)

/-- The result, with the origins of its characters. -/
def markedCommand (host port command : Text) : List (Char × Origin) :=
  renderPieces host port (pieces command)

theorem map_inserted (m : Origin) (value : Text) :
    (inserted .quoting m value).map Prod.fst = quoteShellArgument value := by
  have hbody : (value.flatMap (insertedChar .quoting m)).map Prod.fst =
      value.flatMap fun c => if c = '\'' then ['\'', '\\', '\'', '\''] else [c] := by
    rw [List.map_flatMap]
    congr 1
    funext c
    unfold insertedChar
    by_cases hc : c = '\''
    · subst hc
      rfl
    · rw [if_neg hc, if_neg hc]
      rfl
  rw [inserted, insertedTail, List.map_cons, List.map_append, hbody]
  rfl

theorem renderPieces_cons (host port : Text) (piece : Piece) (parts : List Piece) :
    renderPieces host port (piece :: parts) =
      piece.render host port ++ renderPieces host port parts := List.flatMap_cons

/-- **The result is the template** with the texts in their places; what was put in is not looked at
again. -/
theorem map_renderPieces (host port command : Text) :
    (markedCommand host port command).map Prod.fst =
      substituteFrom (quoteShellArgument host) (quoteShellArgument port) command := by
  unfold markedCommand
  fun_induction pieces command with
  | case1 rest ih =>
      rw [renderPieces_cons, List.map_append, ih, substituteFrom]
      rfl
  | case2 rest ih =>
      rw [renderPieces_cons, List.map_append, ih, substituteFrom, Piece.render, map_inserted]
  | case3 rest ih =>
      rw [renderPieces_cons, List.map_append, ih, substituteFrom, Piece.render, map_inserted]
  | case4 c rest h₁ h₂ h₃ ih =>
      rw [renderPieces_cons, List.map_append, ih, substituteFrom]
      · rfl
      · exact h₁
      · exact h₂
      · exact h₃
  | case5 => rfl

/-! ### Where the host fits -/

/-- A reader after a quoted text that fits. -/
def afterQuotes (s : Shell) : Shell := (s.next '\'').next '\''

/-- Whether the host fits at each of its places, with quoted texts that fit at the places before. -/
def fitsFrom (host : Text) : Shell → List Piece → Bool
  | _, [] => true
  | s, .literal c :: parts => fitsFrom host (s.next c) parts
  | s, .host :: parts => s.fits host && fitsFrom host (afterQuotes s) parts
  | s, .port :: parts => fitsFrom host (afterQuotes s) parts

def hostFits (command host : Text) : Bool := fitsFrom host start (pieces command)

/-- How the characters of the template itself are read. -/
def templateReadings (s : Shell) (marked : List (Char × Origin)) :
    List ((Char × Origin) × Shell × Role) :=
  (readings Prod.fst s marked []).filter fun e => e.1.2 = .template

def IsPlainWord (word : Text) : Prop := word ≠ [] ∧ ∀ c ∈ word, c.isAlphanum = true

def portText (port : UInt16) : Text := Nat.toDigits 10 port.toNat

/-- The texts that are put in stand for themselves, and the template is read as it would be with
plain words in their places. -/
structure Inert (command host : Text) (port : UInt16) : Prop where
  host_data : DataIn .host start (markedCommand host (portText port) command) []
  port_data : DataIn .port start (markedCommand host (portText port) command) []
  template_same : ∀ word portWord, IsPlainWord word → IsPlainWord portWord →
    templateReadings start (markedCommand host (portText port) command) =
      templateReadings start (markedCommand word portWord command)

theorem portText_isPlainWord (port : UInt16) : IsPlainWord (portText port) := by
  refine ⟨Nat.toDigits_ne_nil, ?_⟩
  intro c hc
  have hdigit : c.isDigit = true := Nat.isDigit_of_mem_toDigits (by decide) (by decide) hc
  rw [Char.isAlphanum, hdigit, Bool.or_true]

section Pieces

variable {host port : Text}

theorem run_inserted {m : Origin} (hm : Origin.quoting ≠ m) {s : Shell} {value : Text}
    (h : s.fits value = true) :
    s.run ((inserted .quoting m value).map Prod.fst) = afterQuotes s :=
  (inserted_spec hm s value []).2 h

/-- **The texts stand for themselves exactly where the host fits.** -/
theorem data_iff (hport : ∀ s : Shell, s.fits port = true) (parts : List Piece) (s : Shell) :
    (DataIn .host s (renderPieces host port parts) [] ∧
      DataIn .port s (renderPieces host port parts) []) ↔ fitsFrom host s parts = true := by
  induction parts generalizing s with
  | nil => exact iff_of_true ⟨dataIn_nil, dataIn_nil⟩ rfl
  | cons piece parts ih =>
      rw [renderPieces_cons]
      cases piece with
      | literal c =>
          show (DataIn Origin.host s ((c, Origin.template) :: _) [] ∧
            DataIn Origin.port s ((c, Origin.template) :: _) []) ↔ _
          rw [dataIn_quoting (by decide), dataIn_quoting (by decide), fitsFrom]
          exact ih _
      | host =>
          show (DataIn Origin.host s (inserted _ _ _ ++ _) [] ∧
            DataIn Origin.port s (inserted _ _ _ ++ _) []) ↔ _
          rw [dataIn_append, dataIn_append, (inserted_spec (by decide) s host _).1, fitsFrom,
            Bool.and_eq_true]
          by_cases hfits : s.fits host = true
          · rw [run_inserted (by decide) hfits, ← ih]
            have hother : ∀ after, DataIn Origin.port s (inserted .quoting .host host) after :=
              fun after => dataIn_inserted_of_ne (by decide) (by decide) s host after
            simp [hfits, hother]
          · simp [hfits]
      | port =>
          show (DataIn Origin.host s (inserted _ _ _ ++ _) [] ∧
            DataIn Origin.port s (inserted _ _ _ ++ _) []) ↔ _
          rw [dataIn_append, dataIn_append, (inserted_spec (by decide) s port _).1,
            run_inserted (by decide) (hport s), fitsFrom, ← ih]
          have hother : ∀ after, DataIn Origin.host s (inserted .quoting .port port) after :=
            fun after => dataIn_inserted_of_ne (by decide) (by decide) s port after
          simp [hport s, hother]

theorem renderPieces_sameHead (host port word portWord : Text) (parts : List Piece) :
    SameHead ((renderPieces host port parts).map Prod.fst)
      ((renderPieces word portWord parts).map Prod.fst) := by
  induction parts with
  | nil => exact .nil
  | cons piece parts ih =>
      cases piece with
      | literal c => exact .cons c ih
      | host => exact .quote _ _
      | port => exact .quote _ _

theorem templateReadings_append (s : Shell) (l more : List (Char × Origin)) :
    templateReadings s (l ++ more) =
      (readings Prod.fst s l (more.map Prod.fst)).filter (fun e => e.1.2 = .template) ++
        templateReadings (s.run (l.map Prod.fst)) more := by
  rw [templateReadings, readings_append, List.filter_append, List.append_nil]
  rfl

/-- What is put in has no character of the template. -/
theorem filter_readings_inserted {m : Origin} (hm : m ≠ .template) (s : Shell)
    (value after : Text) :
    (readings Prod.fst s (inserted .quoting m value) after).filter (fun e => e.1.2 = .template) =
      [] := by
  rw [List.filter_eq_nil_iff]
  intro e he htemplate
  obtain h | h := mark_of_mem_readings he
  · rw [h] at htemplate
    nomatch htemplate
  · exact hm (h.symm.trans (of_decide_eq_true htemplate))

/-- **The template is read alike** with any two hosts that fit. -/
theorem templateReadings_eq {word portWord : Text} (hport : ∀ s : Shell, s.fits port = true)
    (hportWord : ∀ s : Shell, s.fits portWord = true) (parts : List Piece) (s : Shell)
    (hhost : fitsFrom host s parts = true) (hword : fitsFrom word s parts = true) :
    templateReadings s (renderPieces host port parts) =
      templateReadings s (renderPieces word portWord parts) := by
  induction parts generalizing s with
  | nil => rfl
  | cons piece parts ih =>
      cases piece with
      | literal c =>
          have hrole : s.role c ((renderPieces host port parts).map Prod.fst ++ []) =
              s.role c ((renderPieces word portWord parts).map Prod.fst ++ []) := by
            rw [List.append_nil, List.append_nil]
            exact (renderPieces_sameHead _ _ _ _ parts).role s c
          have hcons : ∀ l, templateReadings s ((c, .template) :: l) =
              ((c, .template), s, s.role c (l.map Prod.fst ++ [])) ::
                templateReadings (s.next c) l := by
            intro l
            rw [templateReadings, readings, List.filter_cons_of_pos (by simp)]
            rfl
          show templateReadings s ((c, .template) :: renderPieces host port parts) =
            templateReadings s ((c, .template) :: renderPieces word portWord parts)
          rw [hcons, hcons, hrole, ih _ hhost hword]
      | host =>
          rw [fitsFrom, Bool.and_eq_true] at hhost hword
          rw [renderPieces_cons, renderPieces_cons, templateReadings_append,
            templateReadings_append]
          simp only [Piece.render]
          rw [filter_readings_inserted (by decide), filter_readings_inserted (by decide),
            run_inserted (by decide) hhost.1, run_inserted (by decide) hword.1,
            ih _ hhost.2 hword.2]
      | port =>
          rw [renderPieces_cons, renderPieces_cons, templateReadings_append,
            templateReadings_append]
          simp only [Piece.render]
          rw [filter_readings_inserted (by decide), filter_readings_inserted (by decide),
            run_inserted (by decide) (hport s), run_inserted (by decide) (hportWord s),
            ih _ hhost hword]

theorem fitsFrom_of_fits {word : Text} (hword : ∀ s : Shell, s.fits word = true)
    (parts : List Piece) (s : Shell) : fitsFrom word s parts = true := by
  induction parts generalizing s with
  | nil => rfl
  | cons piece parts ih =>
      cases piece with
      | literal c => exact ih _
      | host =>
          rw [fitsFrom, hword s, ih]
          rfl
      | port => exact ih _

end Pieces

/-- **What is put in is inert exactly where the host fits.**  A double percent sign is one, and the
texts are put in as they are. -/
theorem substitution_iff (command host : Text) (port : UInt16) :
    substituteProxyCommand command host port =
      (markedCommand host (portText port) command).map Prod.fst ∧
    (∀ rest, substituteProxyCommand ('%' :: '%' :: rest) host port =
      '%' :: substituteProxyCommand rest host port) ∧
    (∀ rest, substituteProxyCommand ('%' :: 'h' :: rest) host port =
      quoteShellArgument host ++ substituteProxyCommand rest host port) ∧
    (∀ rest, substituteProxyCommand ('%' :: 'p' :: rest) host port =
      quoteShellArgument (portText port) ++ substituteProxyCommand rest host port) ∧
    (Inert command host port ↔ hostFits command host = true) := by
  have hport : ∀ s : Shell, s.fits (portText port) = true :=
    fits_of_isAlphanum (portText_isPlainWord port).2
  refine ⟨(map_renderPieces _ _ _).symm, fun _ => rfl, fun _ => rfl, fun _ => rfl, ?_⟩
  constructor
  · rintro ⟨hhost, hdata, -⟩
    exact (data_iff hport _ _).mp ⟨hhost, hdata⟩
  · intro hfits
    obtain ⟨hhost, hdata⟩ := (data_iff hport _ _).mpr hfits
    refine ⟨hhost, hdata, ?_⟩
    intro word portWord hword hportWord
    exact templateReadings_eq hport (fits_of_isAlphanum hportWord.2) _ _ hfits
      (fitsFrom_of_fits (fits_of_isAlphanum hword.2) _ _)

/-- Between double quotes a host runs a command. -/
theorem substitution_runs_host :
    normalizeHostname "$(id)".toList = "$(id)".toList ∧
      substituteProxyCommand "nc \"%h\" %p".toList "$(id)".toList 22 =
        "nc \"'$(id)'\" '22'".toList ∧
      ¬ Inert "nc \"%h\" %p".toList "$(id)".toList 22 := by
  refine ⟨by decide, by decide, fun h => ?_⟩
  have hdollar := h.host_data (('$', .host), .direct [.double] .ready, .active) (by decide) rfl
  nomatch hdollar

end Netcatty.Ssh
