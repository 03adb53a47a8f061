import CavityConsole.Proofs.Text.Typing
import CavityConsole.Transport.Endpoint

/-!
# Endpoints and their texts

What a text says of an endpoint is settled by two parts of it (`Endpoint.parts`): the characters in
front of its last colon, scheme and brackets left aside, and the characters behind that colon. Texts
with the same parts are read alike, whatever else they are (`parse_alike`).

**The law** (`text_parses_back`): an endpoint is read back from its own text exactly when its host
is there and no bracket that would be left aside stands at its ends. An endpoint that was read is of
this kind, so reading, writing and reading again gives it once more. The scheme in front of a text
and one pair of brackets around what stands before its last colon change nothing.

**What it does not establish.** A host is any text: it may hold colons, brackets in its middle or
the scheme itself, and nothing is said of whether it can be resolved.
-/

namespace CavityConsole

/-- The same kind of error about another text. -/
def EndpointError.about (text : String) : EndpointError → EndpointError
  | .missingHost _ => .missingHost text
  | .missingPort _ => .missingPort text
  | .invalidPort _ => .invalidPort text

namespace Endpoint

/-- A host is there, and no bracket that would be left aside stands at its ends. -/
structure Plain (endpoint : Endpoint) : Prop where
  hasHost : endpoint.host ≠ ""
  noOpening : endpoint.host.toList.head? ≠ some '['
  noClosing : endpoint.host.toList.getLast? ≠ some ']'

/-! ## The last colon -/

theorem splitLastColon_eq_none_iff {cs : List Char} : splitLastColon cs = none ↔ ':' ∉ cs := by
  induction cs with
  | nil => exact ⟨fun _ => List.not_mem_nil, fun _ => rfl⟩
  | cons c cs ih =>
    rw [splitLastColon]
    cases hrest : splitLastColon cs with
    | some parts =>
      have hmem : ':' ∈ cs := by
        by_contra hnot
        rw [ih.mpr hnot] at hrest
        cases hrest
      exact ⟨nofun, fun hnot => absurd (List.mem_cons_of_mem _ hmem) hnot⟩
    | none =>
      have hnot := ih.mp hrest
      by_cases hc : c = ':'
      · simp [hc]
      · simp [hc, hnot, Ne.symm hc]

theorem splitLastColon_append (before : List Char) {behind : List Char} (h : ':' ∉ behind) :
    splitLastColon (before ++ ':' :: behind) = some (before, behind) := by
  induction before with
  | nil => rw [List.nil_append, splitLastColon, splitLastColon_eq_none_iff.mpr h, if_pos rfl]
  | cons c before ih => rw [List.cons_append, splitLastColon, ih]

/-- **A text is divided at its last colon.** -/
theorem splitLastColon_eq_some_iff {cs before behind : List Char} :
    splitLastColon cs = some (before, behind) ↔ cs = before ++ ':' :: behind ∧ ':' ∉ behind := by
  refine ⟨fun h => ?_, fun ⟨hcs, hbehind⟩ => hcs ▸ splitLastColon_append before hbehind⟩
  induction cs generalizing before with
  | nil => cases h
  | cons c cs ih =>
    rw [splitLastColon] at h
    cases hrest : splitLastColon cs with
    | some parts =>
      rw [hrest] at h
      cases h
      obtain ⟨hcs, hbehind⟩ := ih hrest
      exact ⟨by rw [hcs, List.cons_append], hbehind⟩
    | none =>
      rw [hrest] at h
      dsimp only at h
      split at h
      next hc =>
        cases h
        exact ⟨by rw [hc, List.nil_append], splitLastColon_eq_none_iff.mp hrest⟩
      next => cases h

/-! ## Brackets -/

theorem dropBrackets_eq (host : List Char) :
    dropBrackets host = (host.dropWhile (· == '[')).rdropWhile (· == ']') := rfl

/-- Behind the brackets that are left aside, no further one would be. -/
theorem dropBrackets_ends (host : List Char) :
    (dropBrackets host).head? ≠ some '[' ∧ (dropBrackets host).getLast? ≠ some ']' := by
  rw [dropBrackets_eq]
  constructor
  · intro h
    -- what is left starts as it did before brackets were left aside at its end
    obtain ⟨tail, htail⟩ := List.rdropWhile_prefix (· == ']') (host.dropWhile (· == '['))
    have hfirst := List.head?_dropWhile_not (· == '[') host
    rw [← htail, List.head?_append, h] at hfirst
    simp at hfirst
  · intro h
    obtain ⟨hne, hlast⟩ := List.mem_getLast?_eq_getLast h
    exact List.rdropWhile_last_not (· == ']') _ hne (by simp [← hlast])

/-- **A host is left as it is** exactly when no bracket stands at its ends. -/
theorem dropBrackets_eq_self_iff {host : List Char} :
    dropBrackets host = host ↔ host.head? ≠ some '[' ∧ host.getLast? ≠ some ']' := by
  refine ⟨fun h => h ▸ dropBrackets_ends host, fun ⟨hfirst, hlast⟩ => ?_⟩
  rw [dropBrackets_eq, List.dropWhile_eq_self_iff.mpr, List.rdropWhile_eq_self_iff.mpr]
  · intro hne h
    exact hlast (by rw [List.getLast?_eq_some_getLast hne, beq_iff_eq.mp h])
  · intro hlength h
    exact hfirst (by rw [List.head?_eq_getElem?, List.getElem?_eq_getElem hlength, beq_iff_eq.mp h])

/-- **One more pair of brackets makes no difference.** -/
theorem dropBrackets_wrapped (host : List Char) :
    dropBrackets ('[' :: host ++ [']']) = dropBrackets host := by
  rw [dropBrackets_eq, dropBrackets_eq, List.cons_append, List.dropWhile_cons_of_pos rfl,
    List.dropWhile_append]
  split
  next hall =>
    rw [List.isEmpty_iff.mp hall]
    rfl
  next => exact List.rdropWhile_concat_pos _ _ _ rfl

/-! ## What a text says -/

/-- The host and the port that a text names, scheme and brackets left aside, if it has a colon. -/
def parts (text : String) : Option (List Char × List Char) :=
  (splitLastColon (dropScheme text.toList)).map fun (host, port) => (dropBrackets host, port)

theorem parse_eq (text : String) :
    parse text =
      match parts text with
      | none => .error (.missingPort text)
      | some (host, port) =>
        if host.isEmpty then .error (.missingHost text)
        else
          match Text.readNat 65535 port with
          | .error _ => .error (.invalidPort text)
          | .ok n => .ok ⟨String.ofList host, UInt16.ofNat n⟩ := by
  rw [parse, parts]
  cases splitLastColon (dropScheme text.toList) with
  | none => rfl
  | some parts => rfl

/-- An endpoint is read when there is a host and the port is a number within its range. -/
theorem parse_eq_ok_iff {text : String} {endpoint : Endpoint} :
    parse text = .ok endpoint ↔
      ∃ port n, parts text = some (endpoint.host.toList, port) ∧ endpoint.host ≠ "" ∧
        Text.readNat 65535 port = .ok n ∧ endpoint.port = UInt16.ofNat n := by
  rw [parse_eq]
  constructor
  · intro h
    split at h
    next => cases h
    next host port hparts =>
      split at h
      next => cases h
      next hhost =>
        split at h
        next => cases h
        next n hport =>
          cases h
          refine ⟨port, n, by rw [hparts, String.toList_ofList], fun hempty => hhost ?_, hport, rfl⟩
          exact List.isEmpty_iff.mpr (String.ofList_eq_empty_iff.mp hempty)
  · rintro ⟨port, n, hparts, hhost, hport, hn⟩
    have hne : endpoint.host.toList.isEmpty = false := by simpa using hhost
    simp only [hparts, hne, hport, ← hn, String.ofList_toList]
    rfl

/-- **Texts with the same parts are read alike.** -/
theorem parse_alike {text other : String} (h : parts other = parts text) :
    parse other = (parse text).mapError (EndpointError.about other) := by
  rw [parse_eq, parse_eq, h]
  cases parts text with
  | none => rfl
  | some parts =>
    dsimp only
    split
    next => rfl
    next => cases Text.readNat 65535 parts.2 <;> rfl

/-! ## The scheme -/

theorem dropScheme_append (cs : List Char) : dropScheme (scheme ++ cs) = cs := by
  rw [dropScheme, if_pos (List.isPrefixOf_iff_prefix.mpr (List.prefix_append _ _)),
    List.drop_left]

theorem dropScheme_of_not_prefix {cs : List Char} (h : ¬ scheme <+: cs) : dropScheme cs = cs := by
  rw [dropScheme, if_neg (mt List.isPrefixOf_iff_prefix.mp h)]

/-- The scheme in front of a text without it says nothing. -/
theorem parts_scheme {text : String} (h : ¬ scheme <+: text.toList) :
    parts (String.ofList scheme ++ text) = parts text := by
  rw [parts, parts, String.toList_append, String.toList_ofList, dropScheme_append,
    dropScheme_of_not_prefix h]

/-- A text with brackets around what stands before its last colon. -/
def wrapped (before behind : List Char) : String :=
  String.ofList ('[' :: before ++ [']'] ++ ':' :: behind)

/-- One pair of brackets around what stands before the last colon says nothing. -/
theorem parts_wrapped {before behind : List Char} (h : ¬ scheme <+: before ++ ':' :: behind)
    (hbehind : ':' ∉ behind) :
    parts (wrapped before behind) = parts (String.ofList (before ++ ':' :: behind)) := by
  have hscheme : ¬ scheme <+: '[' :: before ++ [']'] ++ ':' :: behind := by
    rintro ⟨rest, hrest⟩
    exact absurd (List.cons.inj hrest).1 (by decide)
  rw [parts, parts, wrapped, String.toList_ofList, String.toList_ofList,
    dropScheme_of_not_prefix hscheme, dropScheme_of_not_prefix h,
    splitLastColon_eq_some_iff.mpr ⟨rfl, hbehind⟩, splitLastColon_eq_some_iff.mpr ⟨rfl, hbehind⟩,
    Option.map_some, Option.map_some]
  dsimp only
  rw [dropBrackets_wrapped]

/-! ## The text of an endpoint -/

theorem colon_notMem_digitText (n : Nat) : ':' ∉ Decimal.digitText n := fun h =>
  absurd (isDigit_of_mem_digitText h) (by decide)

theorem readNat_digitText {bound n : Nat} (h : n ≤ bound) :
    Text.readNat bound (Decimal.digitText n) = .ok n :=
  Text.readNat_eq_ok_iff.mpr ⟨Decimal.digitText n, .inl rfl, Nat.toDigits_ne_nil,
    fun _ => isDigit_of_mem_digitText, Nat.ofDigitChars_toDigits (by decide) (by decide), h⟩

theorem parts_text (endpoint : Endpoint) :
    parts endpoint.text =
      some (dropBrackets endpoint.host.toList, Decimal.digitText endpoint.port.toNat) := by
  rw [parts, text, String.toList_ofList, List.append_assoc, dropScheme_append,
    splitLastColon_eq_some_iff.mpr ⟨rfl, colon_notMem_digitText _⟩, Option.map_some]

/-- **An endpoint is read back from its text** exactly when nothing of its host would be left
aside. -/
theorem parse_text_iff {endpoint : Endpoint} :
    parse endpoint.text = .ok endpoint ↔ endpoint.Plain := by
  rw [parse_eq_ok_iff, parts_text]
  constructor
  · rintro ⟨port, n, hparts, hhost, -⟩
    obtain ⟨hfirst, hlast⟩ := dropBrackets_eq_self_iff.mp (Prod.mk.inj (Option.some.inj hparts)).1
    exact ⟨hhost, hfirst, hlast⟩
  · rintro ⟨hhost, hfirst, hlast⟩
    have hport : endpoint.port.toNat ≤ 65535 := Nat.le_of_lt_succ endpoint.port.toNat_lt
    refine ⟨_, endpoint.port.toNat, ?_, hhost, readNat_digitText hport, UInt16.ofNat_toNat.symm⟩
    rw [dropBrackets_eq_self_iff.mpr ⟨hfirst, hlast⟩]

/-- An endpoint that was read is plain. -/
theorem plain_of_parse {text : String} {endpoint : Endpoint} (h : parse text = .ok endpoint) :
    endpoint.Plain := by
  obtain ⟨port, n, hparts, hhost, -⟩ := parse_eq_ok_iff.mp h
  obtain ⟨⟨before, behind⟩, -, hdropped⟩ := Option.map_eq_some_iff.mp hparts
  have hends := dropBrackets_ends before
  rw [(Prod.mk.inj hdropped).1] at hends
  exact ⟨hhost, hends.1, hends.2⟩

/-- **Endpoints and their texts agree.** An endpoint is read back from its text exactly when it is
plain, and every endpoint that was read is plain, so its text is read as it again. A text without
the scheme is read like the same text behind the scheme, and like the same text with brackets around
what stands before its last colon: as the same endpoint, or with the same kind of error. -/
theorem text_parses_back :
    (∀ endpoint : Endpoint, parse endpoint.text = .ok endpoint ↔ endpoint.Plain) ∧
      (∀ (text : String) (endpoint : Endpoint), parse text = .ok endpoint →
        endpoint.Plain ∧ parse endpoint.text = .ok endpoint) ∧
      ∀ text : String, ¬ scheme <+: text.toList →
        parse (String.ofList scheme ++ text) =
            (parse text).mapError (EndpointError.about (String.ofList scheme ++ text)) ∧
          ∀ before behind, text.toList = before ++ ':' :: behind → ':' ∉ behind →
            parse (wrapped before behind) =
              (parse text).mapError (EndpointError.about (wrapped before behind)) := by
  refine ⟨fun endpoint => parse_text_iff, fun text endpoint h => ?_, fun text hscheme => ⟨?_, ?_⟩⟩
  · exact ⟨plain_of_parse h, parse_text_iff.mpr (plain_of_parse h)⟩
  · exact parse_alike (parts_scheme hscheme)
  · intro before behind htext hbehind
    refine parse_alike ?_
    rw [parts_wrapped (htext ▸ hscheme) hbehind, ← htext, String.ofList_toList]

/-- A host that starts with the scheme and holds colons. -/
def colonEndpoint : Endpoint := ⟨"tcp://fe80::1", 7⟩

theorem text_parses_back_colons :
    parse "tcp://[tcp://fe80::1]]:+07" = .ok colonEndpoint ∧ colonEndpoint.Plain ∧
      parse colonEndpoint.text = .ok colonEndpoint ∧
      ¬ scheme <+: "::1:70000".toList ∧
      parse "tcp://::1:70000" = .error (.invalidPort "tcp://::1:70000") ∧
      parse "[::1]:70000" = .error (.invalidPort "[::1]:70000") := by
  obtain ⟨-, hread, hframed⟩ := text_parses_back
  have hcolons : parse "tcp://[tcp://fe80::1]]:+07" = .ok colonEndpoint := by decide +kernel
  have hscheme : ¬ scheme <+: "::1:70000".toList := by decide +kernel
  have hlarge : parse "::1:70000" = .error (.invalidPort "::1:70000") := by decide +kernel
  obtain ⟨hbehind, hwrapped⟩ := hframed "::1:70000" hscheme
  obtain ⟨hplain, hback⟩ := hread _ _ hcolons
  have hparts : "::1:70000".toList = "::1".toList ++ ':' :: "70000".toList := by decide +kernel
  rw [hlarge] at hbehind
  refine ⟨hcolons, hplain, hback, hscheme, ?_, ?_⟩
  · exact hbehind
  · have hbrackets := hwrapped _ _ hparts (by decide +kernel)
    rw [hlarge] at hbrackets
    exact hbrackets

end Endpoint

end CavityConsole
