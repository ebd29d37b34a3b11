import LinkLake.Core.FleetPortGroup

/-!
# Which certificate a server name gets

A certificate is issued for a host name or for a wildcard, `*.example.com`
(`certificate_catalog.rs`). The resolver looks a server name up in its table, first as it is and then
as a wildcard, and the files of a certificate are in a directory that is named after its identifier
(`certificate_manager.rs`). Both agree with what the catalog says an identifier covers
(`resolver_matches_coverage`).
-/

namespace LinkLake.Certificates

open Fallible Splitting Text FiniteMap

/-! ## Names -/

variable {value identifier hostname name suffix : List Char}

/-- What follows `*.`. -/
def stripWildcard : List Char → Option (List Char)
  | '*' :: '.' :: suffix => some suffix
  | _ => none

/-- The host name of an identifier, without `*.`. -/
def hostnameOf (value : List Char) : List Char := (stripWildcard value).getD value

theorem stripWildcard_eq_some :
    stripWildcard value = some suffix ↔ value = '*' :: '.' :: suffix := by
  unfold stripWildcard
  split <;> simp_all

/-- A port other than zero is dropped. -/
def withoutPort (value : List Char) : List Char :=
  match rsplitOnce ':' value with
  | some (host, port) =>
    if ':' ∉ host ∧ (parseUnsigned 16 port).any (· != 0) = true then host else value
  | none => value

/-- What stands in front of the suffix. -/
def stripSuffix (suffix value : List Char) : Option (List Char) :=
  if suffix <:+ value then some (value.take (value.length - suffix.length)) else none

theorem stripSuffix_eq_some {value front : List Char} :
    stripSuffix suffix value = some front ↔ value = front ++ suffix := by
  unfold stripSuffix
  split_ifs with h
  · obtain ⟨before, rfl⟩ := h
    simp [eq_comm]
  · simpa using fun heq => h ⟨front, heq.symm⟩

def wildcardIdentifierForHostname (hostname : List Char) : Option (List Char) :=
  (splitOnce '.' hostname).map fun parts => '*' :: '.' :: parts.2

theorem covers_wildcard :
    ((stripWildcard identifier).any fun suffix => (stripSuffix suffix hostname).any fun front =>
        front.getLast? == some '.' && !front.dropLast.contains '.') = true ↔
      wildcardIdentifierForHostname hostname = some identifier := by
  simp only [wildcardIdentifierForHostname, Option.any_eq_true, stripWildcard_eq_some,
    stripSuffix_eq_some, Option.map_eq_some_iff, Bool.and_eq_true, beq_iff_eq, Bool.not_eq_true',
    List.contains_eq_mem, decide_eq_false_iff_not]
  constructor
  · rintro ⟨suffix, rfl, front, rfl, hlast, hlabel⟩
    obtain ⟨label, rfl⟩ := List.getLast?_eq_some_iff.mp hlast
    rw [List.dropLast_concat] at hlabel
    refine ⟨(label, suffix), ?_, rfl⟩
    rw [List.append_assoc]
    exact splitOnce_append hlabel
  · rintro ⟨⟨label, suffix⟩, hsplit, rfl⟩
    obtain ⟨rfl, hlabel⟩ := splitOnce_eq_some hsplit
    exact ⟨suffix, rfl, label ++ ['.'], by simp, by simp, by simpa using hlabel⟩

/-- What the checks say of a host name. -/
structure Checked (hostname : List Char) : Prop where
  nonempty : hostname ≠ []
  slash : '/' ∉ hostname
  spaces : ∀ c ∈ hostname, isWhitespace c = false
  labels : ∀ label ∈ hostname.splitOn '.', Fleet.validLabel label = true

theorem Checked.underscore (h : Checked value) : '_' ∉ value := by
  intro hmem
  obtain hdot | ⟨label, hlabel, hmem⟩ := mem_splitOn_or (d := '.') hmem
  · cases hdot
  · have hvalid := h.labels label hlabel
    simp only [Fleet.validLabel, Bool.and_eq_true, List.all_eq_true] at hvalid
    exact absurd (hvalid.2 '_' hmem) (by decide)

theorem Checked.ne_dots (h : Checked value) (n : ℕ) : value ≠ List.replicate (n + 1) '.' := by
  rintro rfl
  refine absurd (h.labels [] ?_) (by decide)
  rw [List.replicate_succ, List.splitOn_cons_eq_if_modifyHead]
  simp

/-! ## Directories -/

/-- `Path::join` for paths that are lists of components. -/
def join (base : List (List Char)) (path : List Char) : List (List Char) :=
  (if path.head? = some '/' then [['/']] else base) ++
    (path.splitOn '/').filter fun component => component ≠ [] ∧ component ≠ ['.']

def directoryName (hostname : List Char) : List Char :=
  (stripWildcard hostname).elim hostname ("_wildcard_.".toList ++ ·)

def certificateDirectory (dataDir : List (List Char)) (hostname : List Char) : List (List Char) :=
  join (join dataDir "certificates".toList) (directoryName hostname)

/-- The path is strictly inside of a directory. -/
def Inside (directory path : List (List Char)) : Prop :=
  ∃ rest, rest ≠ [] ∧ path = directory ++ rest ∧ ['.', '.'] ∉ rest

section Resolver

class IpTexts where
  /-- The text is an IP address. -/
  isIpAddr : List Char → Bool

variable [IpTexts]

/-- The checks of `normalizeCertificateIdentifier`. -/
def checkIdentifier (value : List Char) : Except String Unit := do
  let hostname := hostnameOf value
  rejectIf (hostname = [] ∨ 253 < (String.ofList hostname).utf8ByteSize ∨ '.' ∉ hostname ∨
    IpTexts.isIpAddr hostname = true ∨ '*' ∈ hostname ∨ '/' ∈ hostname ∨ '@' ∈ hostname ∨
    ':' ∈ hostname ∨ hostname.any isWhitespace = true) "certificate identifier is invalid"
  let labels := hostname.splitOn '.'
  rejectIf (labels.length < if (stripWildcard value).isSome then 2 else 1)
    "certificate identifier is invalid"
  rejectIf (labels.all Fleet.validLabel = false) "certificate identifier is invalid"

def normalizeCertificateIdentifier (value : List Char) : Except String (List Char) := do
  let value := (lower (trimChars value)).rdropWhile (· == '.')
  checkIdentifier value
  return if (stripWildcard value).isSome then '*' :: '.' :: hostnameOf value else hostnameOf value

def normalizeHostname (value : List Char) : Except String (List Char) := do
  let value := lower (trimChars value)
  rejectIf (value = [] ∨ 253 < (String.ofList value).utf8ByteSize ∨ ['/', '/'] <:+: value ∨
    '/' ∈ value ∨ '@' ∈ value ∨ value.any isWhitespace = true) "hostname is invalid"
  let value := (withoutPort value).rdropWhile (· == '.')
  rejectIf ('.' ∉ value ∨ IpTexts.isIpAddr value = true) "hostname is invalid"
  rejectIf ((value.splitOn '.').all Fleet.validLabel = false) "hostname is invalid"
  return value

def certificateIdentifierCoversHostname (identifier hostname : List Char) : Bool :=
  match normalizeCertificateIdentifier identifier, normalizeHostname hostname with
  | .ok identifier, .ok hostname =>
    identifier == hostname || (stripWildcard identifier).any fun suffix =>
      (stripSuffix suffix hostname).any fun front =>
        front.getLast? == some '.' && !front.dropLast.contains '.'
  | _, _ => false

/-- The certificate for the server name of a client, if it sends one. -/
def resolve {κ : Type} (certificates : FiniteMap (List Char) κ) (serverName : Option (List Char)) :
    Option κ := do
  let hostname ← (normalizeHostname (← serverName)).toOption
  certificates.get? hostname <|> (wildcardIdentifierForHostname hostname).bind certificates.get?

/-- An identifier in normal form. -/
def IsNormal (identifier : List Char) : Prop :=
  normalizeCertificateIdentifier identifier = .ok identifier

/-! ## Normal forms -/

theorem shape_of_ok (h : checkIdentifier value = .ok ()) :
    directoryName value = value ∧ Checked value ∨
      ∃ suffix, value = '*' :: '.' :: suffix ∧ Checked suffix := by
  simp only [checkIdentifier, bind_unit_eq_ok, rejectIf_eq_ok, not_or, not_not, Bool.not_eq_true,
    Bool.not_eq_false, List.all_eq_true, List.any_eq_false] at h
  obtain ⟨⟨hne, -, -, -, -, hslash, -, -, hspaces⟩, -, hlabels⟩ := h
  have hchecked : Checked (hostnameOf value) :=
    ⟨hne, hslash, fun c hc => Bool.not_eq_true _ ▸ hspaces c hc, hlabels⟩
  cases hstrip : stripWildcard value with
  | none =>
    rw [hostnameOf, hstrip, Option.getD_none] at hchecked
    exact .inl ⟨by rw [directoryName, hstrip, Option.elim_none], hchecked⟩
  | some suffix =>
    rw [hostnameOf, hstrip, Option.getD_some] at hchecked
    exact .inr ⟨suffix, stripWildcard_eq_some.mp hstrip, hchecked⟩

theorem normalizeCertificateIdentifier_eq_ok :
    normalizeCertificateIdentifier value = .ok identifier ↔
      checkIdentifier identifier = .ok () ∧
        (lower (trimChars value)).rdropWhile (· == '.') = identifier := by
  generalize hlowered : (lower (trimChars value)).rdropWhile (· == '.') = lowered
  have hsame : (if (stripWildcard lowered).isSome then '*' :: '.' :: hostnameOf lowered
      else hostnameOf lowered) = lowered := by
    cases hstrip : stripWildcard lowered with
    | none => simp [hostnameOf, hstrip]
    | some suffix =>
      rw [stripWildcard_eq_some.mp hstrip]
      rfl
  rw [normalizeCertificateIdentifier, hlowered, bind_unit_eq_ok, pure_eq_ok, hsame]
  exact ⟨fun ⟨h, heq⟩ => ⟨heq ▸ h, heq⟩, fun ⟨h, heq⟩ => ⟨heq ▸ h, heq⟩⟩

theorem isNormal_of_normalized (h : normalizeCertificateIdentifier value = .ok identifier) :
    IsNormal identifier := by
  obtain ⟨hcheck, hvalue⟩ := normalizeCertificateIdentifier_eq_ok.mp h
  refine normalizeCertificateIdentifier_eq_ok.mpr ⟨hcheck, ?_⟩
  have hspaces : ∀ c ∈ identifier, isWhitespace c = false := by
    obtain ⟨-, hchecked⟩ | ⟨suffix, rfl, hchecked⟩ := shape_of_ok hcheck
    · exact hchecked.spaces
    · simpa [show isWhitespace '*' = false from rfl, show isWhitespace '.' = false from rfl]
        using hchecked.spaces
  have hlower : lower identifier = identifier := by
    refine (List.map_congr_left fun c hc => ?_).trans (List.map_id identifier)
    obtain ⟨d, -, rfl⟩ := List.mem_map.mp ((List.rdropWhile_prefix _ _).subset (hvalue ▸ hc))
    exact Char.toLower_toLower_eq_toLower d
  rw [trimChars_eq_self hspaces, hlower, ← hvalue, List.rdropWhile_idempotent]

/-! ## Directories of identifiers in normal form -/

theorem join_directoryName (h : checkIdentifier value = .ok ()) (base : List (List Char)) :
    join base (directoryName value) = base ++ [directoryName value] ∧
      directoryName value ≠ ['.', '.'] := by
  have hname : '/' ∉ directoryName value ∧ directoryName value ≠ [] ∧ directoryName value ≠ ['.'] ∧
      directoryName value ≠ ['.', '.'] := by
    obtain ⟨hsame, hchecked⟩ | ⟨suffix, rfl, hchecked⟩ := shape_of_ok h
    · rw [hsame]
      exact ⟨hchecked.slash, hchecked.nonempty, hchecked.ne_dots 0, hchecked.ne_dots 1⟩
    · simp [directoryName, stripWildcard, hchecked.slash]
  obtain ⟨hslash, hne, hdot, hdots⟩ := hname
  have hsplit : (directoryName value).splitOn '/' = [directoryName value] :=
    List.splitOnP_eq_singleton fun c hc => by simpa using fun heq : c = '/' => hslash (heq ▸ hc)
  have hhead : (directoryName value).head? ≠ some '/' := fun hhead =>
    hslash (List.mem_of_mem_head? hhead)
  refine ⟨?_, hdots⟩
  rw [join, if_neg hhead, hsplit]
  simp [hne, hdot]

theorem directoryName_injective {a b : List Char} (ha : checkIdentifier a = .ok ())
    (hb : checkIdentifier b = .ok ()) (h : directoryName a = directoryName b) : a = b := by
  -- a name with an underscore is not one of a host name
  have hwildcard : ∀ suffix, '_' ∈ directoryName ('*' :: '.' :: suffix) := fun suffix => by
    simp [directoryName, stripWildcard]
  obtain ⟨hsame, hchecked⟩ | ⟨suffix, rfl, -⟩ := shape_of_ok ha <;>
    obtain ⟨hsame', hchecked'⟩ | ⟨suffix', rfl, -⟩ := shape_of_ok hb
  · rw [← hsame, h, hsame']
  · exact absurd (hsame ▸ h ▸ hwildcard suffix') hchecked.underscore
  · exact absurd (hsame' ▸ h ▸ hwildcard suffix) hchecked'.underscore
  · rw [List.append_cancel_left h]

/-! ## Selection -/

theorem covers_iff (hnormal : IsNormal identifier) :
    certificateIdentifierCoversHostname identifier name = true ↔
      ∃ hostname, normalizeHostname name = .ok hostname ∧
        (identifier = hostname ∨ wildcardIdentifierForHostname hostname = some identifier) := by
  have hidentifier := hnormal
  unfold certificateIdentifierCoversHostname
  rw [hidentifier]
  cases normalizeHostname name with
  | error message => simp
  | ok hostname =>
    rw [Bool.or_eq_true, covers_wildcard, beq_iff_eq]
    simp

/-- **Certificates are selected as they cover.** With identifiers in normal form in its table, the
resolver returns a certificate whose identifier covers the server name, the one of the name itself if
there is one, and none only if no identifier covers it. What is normalised is in normal form, and
different identifiers in normal form have different directories, inside of that of all
certificates. -/
theorem resolver_matches_coverage {κ : Type} (certificates : FiniteMap (List Char) κ)
    (hnormal : ∀ identifier ∈ certificates, IsNormal identifier) :
    (∀ name key, resolve certificates (some name) = some key →
      ∃ identifier, certificates.get? identifier = some key ∧
        certificateIdentifierCoversHostname identifier name = true) ∧
    (∀ name identifier key, normalizeHostname name = .ok identifier →
      certificates.get? identifier = some key →
      resolve certificates (some name) = some key) ∧
    (∀ name, resolve certificates (some name) = none ↔ ∀ identifier ∈ certificates,
      certificateIdentifierCoversHostname identifier name = false) ∧
    (∀ value identifier, normalizeCertificateIdentifier value = .ok identifier →
      IsNormal identifier) ∧
    ∀ dataDir a, IsNormal a →
      Inside (join dataDir "certificates".toList) (certificateDirectory dataDir a) ∧
      ∀ b, IsNormal b → a ≠ b →
        certificateDirectory dataDir a ≠ certificateDirectory dataDir b := by
  have hresolve : ∀ name hostname, normalizeHostname name = .ok hostname →
      resolve certificates (some name) = (certificates.get? hostname <|>
        (wildcardIdentifierForHostname hostname).bind certificates.get?) := by
    intro name hostname hname
    simp [resolve, hname, Except.toOption]
  have hfound : ∀ name key, resolve certificates (some name) = some key →
      ∃ identifier, certificates.get? identifier = some key ∧
        certificateIdentifierCoversHostname identifier name = true := by
    intro name key hkey
    cases hname : normalizeHostname name with
    | error message => simp [resolve, hname, Except.toOption] at hkey
    | ok hostname =>
      rw [hresolve name hostname hname, Option.orElse_eq_some] at hkey
      obtain hexact | ⟨-, hwildcard⟩ := hkey
      · have hmem := hnormal hostname (mem_of_get? hexact)
        exact ⟨hostname, hexact, (covers_iff hmem).mpr ⟨hostname, hname, .inl rfl⟩⟩
      · obtain ⟨identifier, hidentifier, hget⟩ := Option.bind_eq_some_iff.mp hwildcard
        have hmem := hnormal identifier (mem_of_get? hget)
        exact ⟨identifier, hget, (covers_iff hmem).mpr ⟨hostname, hname, .inr hidentifier⟩⟩
  refine ⟨hfound, fun name identifier key hname hget => ?_, fun name => ⟨fun hnone => ?_, ?_⟩,
    fun value identifier => isNormal_of_normalized, fun dataDir a ha => ?_⟩
  · rw [hresolve name identifier hname, hget]
    rfl
  · intro identifier hmem
    rw [← Bool.not_eq_true, covers_iff (hnormal identifier hmem)]
    rintro ⟨hostname, hname, hcovers⟩
    obtain ⟨key, hget⟩ := mem_iff.mp hmem
    rw [hresolve name hostname hname] at hnone
    obtain rfl | hwildcard := hcovers
    · simp [hget] at hnone
    · simp [hwildcard, hget] at hnone
  · intro hnone
    rw [Option.eq_none_iff_forall_ne_some]
    intro key hkey
    obtain ⟨identifier, hget, hcovers⟩ := hfound name key hkey
    cases (hnone identifier (mem_of_get? hget)).symm.trans hcovers
  · obtain ⟨hcheck, -⟩ := normalizeCertificateIdentifier_eq_ok.mp ha
    obtain ⟨hjoin, hdots⟩ := join_directoryName hcheck (join dataDir "certificates".toList)
    refine ⟨⟨[directoryName a], by simp, hjoin, by simpa [eq_comm] using hdots⟩, ?_⟩
    intro b hb hne heq
    obtain ⟨hcheck', -⟩ := normalizeCertificateIdentifier_eq_ok.mp hb
    have hjoin' := (join_directoryName hcheck' (join dataDir "certificates".toList)).1
    rw [certificateDirectory, certificateDirectory, hjoin, hjoin'] at heq
    exact hne (directoryName_injective hcheck hcheck' (by simpa using heq))

end Resolver

namespace Sample

scoped instance : IpTexts := ⟨fun _ => false⟩

/-- A certificate for a domain, and one for its subdomains. -/
def certificates : FiniteMap (List Char) ℕ :=
  ((∅ : FiniteMap (List Char) ℕ).insert "a.org".toList 1).insert "*.a.org".toList 2

end Sample

open Sample in
/-- A subdomain gets the wildcard certificate, and a domain of three levels none. -/
theorem resolver_matches_coverage_subdomain :
    resolve certificates (some "W.a.org:443".toList) = some 2 ∧
      resolve certificates (some "v.w.a.org".toList) = none ∧
      certificateIdentifierCoversHostname "*.a.org".toList "v.w.a.org".toList = false := by
  have hnormal : ∀ identifier ∈ certificates.keys,
      normalizeCertificateIdentifier identifier = .ok identifier := by decide +kernel
  have hnone : resolve certificates (some "v.w.a.org".toList) = none := by decide +kernel
  have hmem : "*.a.org".toList ∈ certificates := by decide +kernel
  obtain ⟨-, -, hcovers, -⟩ := resolver_matches_coverage certificates hnormal
  exact ⟨by decide +kernel, hnone, (hcovers _).mp hnone _ hmem⟩

end LinkLake.Certificates
