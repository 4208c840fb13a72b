import ZkPayroll.Framework.Guards
import ZkPayroll.Framework.Separated
import ZkPayroll.Framework.Text

/-!
# The identity of an asset

`assets/assetIdentity.ts`: a loose identifier of an asset becomes its canonical
one (`normalizeAssetIdentity`). An identifier that is accepted denotes one asset
(`Denotes`): the native one, an asset that an issuer has issued under a code, or
the one of a contract. The canonical id is accepted as well, with the same
result, and two identifiers have the same one just if they denote the same asset
(`identities_of_assets`). Whatever addresses are taken for valid, no id is
shared: that of an issued asset has a colon, those of contracts have none, and
`native` is not one of these.
-/

namespace ZkPayroll.Assets

open Framework

/-! ## Errors -/

inductive AssetIdentityErrorCode where
  | EMPTY_INPUT
  | INVALID_CODE
  | INVALID_CODE_CHARACTERS
  | MISSING_ISSUER
  | INVALID_ISSUER
  | AMBIGUOUS_SEPARATOR
  deriving DecidableEq

structure AssetIdentityError where
  message : String
  code : AssetIdentityErrorCode
  context : List (String × String)
  deriving DecidableEq

/-! ## Identities -/

inductive CanonicalAssetKind where
  | native
  | issued
  | contract
  deriving DecidableEq

structure CanonicalAsset where
  kind : CanonicalAssetKind
  id : String
  code : Option String := none
  issuer : Option String := none
  displayLabel : String
  deriving DecidableEq

structure NormalizeAssetIdentityOptions where
  coerceCodeCase : Option Bool := none

/-- The checks that the Stellar SDK offers: `none` where one is missing or
throws. -/
structure StrKey where
  isValidEd25519PublicKey : String → Option Bool
  isValidContract : String → Option Bool

/-- `/^x[A-Z2-7]{55}$/.test(s)`. -/
def matchesStrKey (version : Char) (s : String) : Bool :=
  match s.toList with
  | [] => false
  | c :: cs => c == version && cs.length == 55 && cs.all isBase32Char

variable (strKey : StrKey)

def isValidIssuer (issuer : String) : Bool :=
  (strKey.isValidEd25519PublicKey issuer).getD (matchesStrKey 'G' issuer)

def isContractId (id : String) : Bool := (strKey.isValidContract id).getD (matchesStrKey 'C' id)

def NATIVE_ALIASES : List String := ["native", "xlm"]

/-- No letter beyond ASCII becomes one of those of an alias, so only ASCII
letters are lowered. -/
def isNativeAlias (s : String) : Bool := NATIVE_ALIASES.contains (asciiLowerCase s)

/-- `[A-Za-z0-9]` -/
def isCodeChar (c : Char) : Bool := c.isAlphanum

/-- `ASSET_CODE_PATTERN` -/
def matchesCode (cs : List Char) : Bool := 1 ≤ cs.length && cs.length ≤ 12 && cs.all isCodeChar

def nativeIdentity : CanonicalAsset where
  kind := .native
  id := "native"
  code := some "XLM"
  displayLabel := "XLM (native)"

/-- Contract ids have no other than ASCII letters and digits. -/
def contractIdentity (id : String) : CanonicalAsset where
  kind := .contract
  id := id
  displayLabel := String.ofList (id.toList.take 8) ++ "…" ++ String.ofList (id.toList.drop (id.toList.length - 4))

def issuedIdentity (code issuer : String) : CanonicalAsset where
  kind := .issued
  id := s!"{code}:{issuer}"
  code := some code
  issuer := some issuer
  displayLabel := code

/-- The identity of the two segments of `trimmed`. -/
def normalizeIssued (coerceCodeCase : Bool) (trimmed : String) (rawCode issuer : List Char) :
    Except AssetIdentityError CanonicalAsset := do
  throwIf (trimChars rawCode = []) {
    message := s!"Asset identifier \"{trimmed}\" has an empty code segment."
    code := .INVALID_CODE
    context := [("input", trimmed)] }
  throwIf (matchesCode rawCode = false) {
    message := s!"Asset code \"{String.ofList rawCode}\" must be 1-12 alphanumeric characters."
    code := .INVALID_CODE_CHARACTERS
    context := [("input", trimmed), ("code", String.ofList rawCode)] }
  throwIf (rawCode.any Char.isLower = true ∧ coerceCodeCase = false) {
    message := s!"Asset code \"{String.ofList rawCode}\" is not upper case and coerceCodeCase is disabled."
    code := .INVALID_CODE_CHARACTERS
    context := [("input", trimmed), ("code", String.ofList rawCode)] }
  let code := String.ofList (rawCode.map Char.toUpper)
  throwIf (trimChars issuer = []) {
    message := s!"Issued asset \"{code}\" is missing an issuer after \":\"."
    code := .MISSING_ISSUER
    context := [("input", trimmed), ("code", code)] }
  throwIf (isValidIssuer strKey (String.ofList issuer) = false) {
    message := s!"Issuer \"{String.ofList issuer}\" for asset \"{code}\" is not a valid Stellar account id."
    code := .INVALID_ISSUER
    context := [("input", trimmed), ("code", code), ("issuer", String.ofList issuer)] }
  return issuedIdentity code (String.ofList issuer)

def normalizeAssetIdentity (input : String) (options : NormalizeAssetIdentityOptions) :
    Except AssetIdentityError CanonicalAsset := do
  let trimmed := trim input
  throwIf (trimmed = "") {
    message := "Asset identifier must be a non-empty string."
    code := .EMPTY_INPUT
    context := [("input", input)] }
  if isNativeAlias trimmed then return nativeIdentity
  match trimmed.toList.splitOn ':' with
  | [rawCode, issuer] => normalizeIssued strKey (options.coerceCodeCase.getD true) trimmed rawCode issuer
  | [_] =>
    throwIf (isContractId strKey trimmed = false) {
      message := s!"Issued asset \"{trimmed}\" is missing an issuer. Use the \"CODE:ISSUER\" form."
      code := .MISSING_ISSUER
      context := [("input", trimmed), ("code", trimmed)] }
    return contractIdentity trimmed
  | _ =>
    throw {
      message := s!"Asset identifier \"{trimmed}\" has more than one \":\" separator."
      code := .AMBIGUOUS_SEPARATOR
      context := [("input", trimmed)] }

/-! ## Assets -/

/-- An asset that an identifier can denote. -/
inductive Asset where
  | native
  | issued (code issuer : String)
  | contract (id : String)
  deriving DecidableEq

/-- The identity that the asset has. -/
def Asset.identity : Asset → CanonicalAsset
  | .native => nativeIdentity
  | .issued code issuer => issuedIdentity code issuer
  | .contract id => contractIdentity id

/-- What an identifier denotes: white space around it does not count, nor does
the case of a code or of a name of the native asset. -/
inductive Denotes (input : String) : Asset → Prop
  | native (h : isNativeAlias (trim input) = true) : Denotes input .native
  | issued {rawCode issuer : List Char} (hinput : (trim input).toList = rawCode ++ ':' :: issuer)
      (hcode : matchesCode rawCode = true) (hcolon : ':' ∉ issuer)
      (hissuer : isValidIssuer strKey (String.ofList issuer) = true) (hpresent : trimChars issuer ≠ []) :
      Denotes input (.issued (String.ofList (rawCode.map Char.toUpper)) (String.ofList issuer))
  | contract (hcolon : ':' ∉ (trim input).toList) (hother : isNativeAlias (trim input) = false)
      (hid : isContractId strKey (trim input) = true) (hpresent : trim input ≠ "") :
      Denotes input (.contract (trim input))

/-- A code with lower-case letters is accepted unless `coerceCodeCase` is off. -/
def CaseFits (input : String) (options : NormalizeAssetIdentityOptions) : Prop :=
  ∀ rawCode issuer, (trim input).toList = rawCode ++ ':' :: issuer → ':' ∉ rawCode →
    rawCode.any Char.isLower = true → options.coerceCodeCase.getD true = true

/-- Of the assets that an identifier denotes: the code is in upper case, and the
id has no white space around it. -/
inductive Asset.Canonical : Asset → Prop
  | native : Asset.Canonical .native
  | issued {code issuer : List Char} (hcode : matchesCode code = true) (hlower : code.any Char.isLower = false)
      (hupper : code.map Char.toUpper = code) (hcolon : ':' ∉ issuer)
      (hissuer : isValidIssuer strKey (String.ofList issuer) = true) (hpresent : trimChars issuer ≠ [])
      (hend : ∀ c ∈ issuer.getLast?, isSpace c = false) :
      Asset.Canonical (.issued (String.ofList code) (String.ofList issuer))
  | contract {id : String} (hcolon : ':' ∉ id.toList) (hother : isNativeAlias id = false)
      (hid : isContractId strKey id = true) (hpresent : id ≠ "") (htrim : trim id = id) : Asset.Canonical (.contract id)

theorem Asset.identity_injective : Function.Injective Asset.identity := by
  intro s t h
  cases s with
  | native => cases t <;> simp_all [Asset.identity, nativeIdentity, issuedIdentity, contractIdentity]
  | issued code issuer => cases t <;> simp_all [Asset.identity, nativeIdentity, issuedIdentity, contractIdentity]
  | contract id => cases t <;> simp_all [Asset.identity, nativeIdentity, issuedIdentity, contractIdentity]

/-! ## Codes -/

variable {c : Char}

theorem codeChar_lt (h : isCodeChar c = true) : c.toNat < 128 := by
  have hc : c.toNat = c.val.toNat := rfl
  have hZ : 'Z'.val.toNat = 90 := rfl
  have hz : 'z'.val.toNat = 122 := rfl
  have h9 : '9'.val.toNat = 57 := rfl
  have hcase : (decide (c.val ≥ 'A'.val ∧ c.val ≤ 'Z'.val) || (decide (c.val ≥ 'a'.val) && decide (c.val ≤ 'z'.val)) ||
      (decide (c.val ≥ '0'.val) && decide (c.val ≤ '9'.val))) = true := h
  simp only [Bool.or_eq_true, Bool.and_eq_true, decide_eq_true_eq, ge_iff_le, UInt32.le_iff_toNat_le] at hcase
  omega

/-- What the characters of a code are, and what they become. -/
theorem upper_codeChar (h : isCodeChar c = true) :
    c ≠ ':' ∧ isCodeChar c.toUpper = true ∧ c.toUpper.isLower = false ∧
      c.toUpper.toUpper = c.toUpper := by
  have hlt := codeChar_lt h
  revert h
  apply of_codePoints (P := fun c => isCodeChar c = true → c ≠ ':' ∧ isCodeChar c.toUpper = true ∧
    c.toUpper.isLower = false ∧ c.toUpper.toUpper = c.toUpper) _ hlt
  decide

variable {cs : List Char}

theorem isCodeChar_of_mem (h : matchesCode cs = true) (hc : c ∈ cs) : isCodeChar c = true := by
  simp only [matchesCode, Bool.and_eq_true, List.all_eq_true] at h
  exact h.2 c hc

theorem colon_notMem_of_matchesCode (h : matchesCode cs = true) : ':' ∉ cs :=
  fun hc => (upper_codeChar (isCodeChar_of_mem h hc)).1 rfl

theorem matchesCode_upper (h : matchesCode cs = true) : matchesCode (cs.map Char.toUpper) = true := by
  have hall : (cs.map Char.toUpper).all isCodeChar = true := by
    rw [List.all_map, List.all_eq_true]
    intro c hc
    exact (upper_codeChar (isCodeChar_of_mem h hc)).2.1
  simp only [matchesCode, Bool.and_eq_true] at h ⊢
  rw [List.length_map]
  exact ⟨h.1, hall⟩

theorem any_isLower_upper (h : matchesCode cs = true) :
    (cs.map Char.toUpper).any Char.isLower = false := by
  rw [List.any_map, List.any_eq_false]
  intro c hc
  simp [(upper_codeChar (isCodeChar_of_mem h hc)).2.2.1]

theorem upper_upper (h : matchesCode cs = true) :
    (cs.map Char.toUpper).map Char.toUpper = cs.map Char.toUpper := by
  rw [List.map_map]
  exact List.map_congr_left fun c hc => (upper_codeChar (isCodeChar_of_mem h hc)).2.2.2

theorem codeChar_not_space (h : isCodeChar c = true) : isSpace c = false := by
  have hlt := codeChar_lt h
  revert h
  apply of_codePoints (P := fun c => isCodeChar c = true → isSpace c = false) _ hlt
  decide

/-- A code is not blank. -/
theorem trimChars_code_ne_nil (h : matchesCode cs = true) : trimChars cs ≠ [] := by
  rw [trimChars_of_no_space fun c hc => codeChar_not_space (isCodeChar_of_mem h hc)]
  intro hnil
  rw [hnil] at h
  exact absurd h (by decide)

/-! ## Identifiers -/

/-- The names of the native asset have no colon. -/
theorem colon_notMem_of_isNativeAlias {s : String} (h : isNativeAlias s = true) : ':' ∉ s.toList := by
  intro hc
  have hlower : ':' ∈ (asciiLowerCase s).toList := by
    rw [asciiLowerCase, String.toList_ofList]
    exact List.mem_map.mpr ⟨':', hc, by decide⟩
  rw [isNativeAlias, List.contains_iff_mem] at h
  simp only [NATIVE_ALIASES, List.mem_cons, List.not_mem_nil, or_false] at h
  rcases h with h | h
  · rw [h] at hlower
    exact absurd hlower (by decide)
  · rw [h] at hlower
    exact absurd hlower (by decide)

section

variable {strKey}

theorem normalizeIssued_of {coerceCodeCase : Bool} {trimmed : String} {rawCode issuer : List Char}
    (hcode : matchesCode rawCode = true) (hcase : rawCode.any Char.isLower = true → coerceCodeCase = true)
    (hissuer : isValidIssuer strKey (String.ofList issuer) = true) (hpresent : trimChars issuer ≠ []) :
    normalizeIssued strKey coerceCodeCase trimmed rawCode issuer =
      .ok (issuedIdentity (String.ofList (rawCode.map Char.toUpper)) (String.ofList issuer)) := by
  rw [normalizeIssued, throwIf_bind_of_not (trimChars_code_ne_nil hcode), throwIf_bind_of_not (by simp [hcode]),
    throwIf_bind_of_not fun hlower => absurd hlower.2 (by simp [hcase hlower.1])]
  dsimp only
  rw [throwIf_bind_of_not hpresent, throwIf_bind_of_not (by simp [hissuer])]
  rfl

theorem of_normalizeIssued {coerceCodeCase : Bool} {trimmed : String} {rawCode issuer : List Char} {a : CanonicalAsset}
    (h : normalizeIssued strKey coerceCodeCase trimmed rawCode issuer = .ok a) :
    matchesCode rawCode = true ∧ (rawCode.any Char.isLower = true → coerceCodeCase = true) ∧
      isValidIssuer strKey (String.ofList issuer) = true ∧ trimChars issuer ≠ [] ∧
      a = issuedIdentity (String.ofList (rawCode.map Char.toUpper)) (String.ofList issuer) := by
  simp only [normalizeIssued, throwIf_bind_eq_ok] at h
  obtain ⟨-, hcode, hcase, hpresent, hissuer, ha⟩ := h
  cases ha
  refine ⟨by simpa using hcode, fun hlower => ?_, by simpa using hissuer, hpresent, rfl⟩
  exact Bool.of_not_eq_false fun hoff => hcase ⟨hlower, hoff⟩

variable {input : String}

theorem caseFits_of_colon (options : NormalizeAssetIdentityOptions) (h : ':' ∉ (trim input).toList) :
    CaseFits input options := by
  intro rawCode issuer htext
  rw [htext] at h
  exact absurd (by simp) h

/-- What is accepted denotes an asset, whose identity is the result. -/
theorem denotes_of_normalizeAssetIdentity {options : NormalizeAssetIdentityOptions} {a : CanonicalAsset}
    (h : normalizeAssetIdentity strKey input options = .ok a) :
    ∃ s, Denotes strKey input s ∧ CaseFits input options ∧ a = s.identity := by
  simp only [normalizeAssetIdentity, throwIf_bind_eq_ok] at h
  obtain ⟨hne, h⟩ := h
  split at h
  next hnative =>
    cases h
    exact ⟨.native, .native hnative, caseFits_of_colon options (colon_notMem_of_isNativeAlias hnative), rfl⟩
  next hother =>
    split at h
    next rawCode issuer hparts =>
      obtain ⟨hinput, hfree, hcolon⟩ := splitOn_eq_pair_iff.mp hparts
      obtain ⟨hcode, hcase, hissuer, hpresent, ha⟩ := of_normalizeIssued h
      refine ⟨_, .issued hinput hcode hcolon hissuer hpresent, ?_, ha⟩
      intro rawCode' issuer' htext hfree' hlower
      obtain ⟨rfl, -⟩ := eq_of_append_eq hfree hfree' (by simp) (by simp) (hinput.symm.trans htext)
      exact hcase hlower
    next hparts =>
      rw [throwIf_bind_eq_ok] at h
      obtain ⟨hpart, hcolon⟩ := splitOn_eq_singleton_iff.mp hparts
      rw [← hpart] at hcolon
      cases h.2
      exact ⟨_, .contract hcolon (by simpa using hother) (by simpa using h.1) hne, caseFits_of_colon options hcolon, rfl⟩
    next => cases h

variable {s : Asset}

/-- What denotes an asset is accepted. -/
theorem Denotes.normalize {options : NormalizeAssetIdentityOptions}
    (h : Denotes strKey input s) (hcase : CaseFits input options) :
    normalizeAssetIdentity strKey input options = .ok s.identity := by
  cases h with
  | native hnative =>
    have hne : trim input ≠ "" := by
      intro hempty
      rw [hempty] at hnative
      exact absurd hnative (by decide)
    rw [normalizeAssetIdentity, throwIf_bind_of_not hne, if_pos hnative]
    rfl
  | @issued rawCode issuer hinput hcode hcolon hissuer hpresent =>
    have hmem : ':' ∈ (trim input).toList := by
      rw [hinput]
      simp
    have hne : trim input ≠ "" := by
      intro hempty
      rw [hempty] at hmem
      exact absurd hmem (by simp)
    have hfree := colon_notMem_of_matchesCode hcode
    rw [normalizeAssetIdentity, throwIf_bind_of_not hne, if_neg fun h => colon_notMem_of_isNativeAlias h hmem,
      splitOn_eq_pair_iff.mpr ⟨hinput, hfree, hcolon⟩]
    exact normalizeIssued_of hcode (hcase rawCode issuer hinput hfree) hissuer hpresent
  | contract hcolon hother hid hpresent =>
    rw [normalizeAssetIdentity, throwIf_bind_of_not hpresent, if_neg (by simp [hother]),
      List.splitOn_eq_singleton hcolon]
    exact throwIf_bind_of_not (by simp [hid])

/-- An identifier denotes no two assets. -/
theorem Denotes.unique {s t : Asset} (hs : Denotes strKey input s) (ht : Denotes strKey input t) :
    s = t := by
  have hcase : CaseFits input {} := fun _ _ _ _ _ => rfl
  have hidentity := hs.normalize hcase
  rw [ht.normalize hcase, Except.ok.injEq] at hidentity
  exact Asset.identity_injective hidentity.symm

/-! ## Canonical ids -/

theorem trimChars_ne_nil {cs : List Char} (h : trimChars cs ≠ []) : cs ≠ [] := by
  intro hnil
  rw [hnil] at h
  exact h rfl

theorem Denotes.canonical (h : Denotes strKey input s) : s.Canonical strKey := by
  cases h with
  | native => exact .native
  | @issued rawCode issuer hinput hcode hcolon hissuer hpresent =>
    have hend := getLast?_trimChars_not input.toList
    rw [trim, String.toList_ofList] at hinput
    rw [hinput, List.getLast?_append_of_ne_nil _ (List.cons_ne_nil _ _),
      List.getLast?_cons_of_ne_nil (trimChars_ne_nil hpresent)] at hend
    exact .issued (matchesCode_upper hcode) (any_isLower_upper hcode) (upper_upper hcode) hcolon hissuer hpresent hend
  | contract hcolon hother hid hpresent => exact .contract hcolon hother hid hpresent (trim_trim input)

theorem toList_issuedId (code issuer : List Char) :
    (issuedIdentity (String.ofList code) (String.ofList issuer)).id.toList = code ++ ':' :: issuer := by
  simp [issuedIdentity, ToString.toString]

theorem trim_issuedId {code issuer : List Char} (hcode : matchesCode code = true) (hpresent : trimChars issuer ≠ [])
    (hend : ∀ c ∈ issuer.getLast?, isSpace c = false) :
    trimChars (code ++ ':' :: issuer) = code ++ ':' :: issuer := by
  obtain ⟨init, d, rfl⟩ := List.eq_nil_or_concat issuer |>.resolve_left (trimChars_ne_nil hpresent)
  have hd : isSpace d = false := hend d (by simp)
  cases code with
  | nil => exact absurd hcode (by decide)
  | cons c code =>
    have hc : isSpace c = false := codeChar_not_space (isCodeChar_of_mem hcode List.mem_cons_self)
    have hself : trimChars (c :: (code ++ ':' :: init) ++ [d]) = c :: (code ++ ':' :: init) ++ [d] :=
      trimChars_eq_self hc hd
    simpa using hself

/-- The id of an asset denotes it, in the case that is always accepted. -/
theorem Asset.Canonical.denotes (h : s.Canonical strKey) (options : NormalizeAssetIdentityOptions) :
    Denotes strKey s.identity.id s ∧ CaseFits s.identity.id options := by
  cases h with
  | native => exact ⟨.native rfl, caseFits_of_colon options (by decide)⟩
  | @issued code issuer hcode hlower hupper hcolon hissuer hpresent hend =>
    have htext : (trim (issuedIdentity (String.ofList code) (String.ofList issuer)).id).toList = code ++ ':' :: issuer := by
      rw [trim, String.toList_ofList, toList_issuedId, trim_issuedId hcode hpresent hend]
    constructor
    · have hdenotes := Denotes.issued htext hcode hcolon hissuer hpresent
      rw [hupper] at hdenotes
      exact hdenotes
    · intro rawCode' issuer' htext' hfree' hlower'
      obtain ⟨rfl, -⟩ := eq_of_append_eq (colon_notMem_of_matchesCode hcode) hfree' (by simp) (by simp)
        (htext.symm.trans htext')
      rw [hlower] at hlower'
      cases hlower'
  | @contract id hcolon hother hid hpresent htrim =>
    have hid' : (contractIdentity id).id = id := rfl
    rw [Asset.identity, hid']
    refine ⟨?_, caseFits_of_colon options (by rwa [htrim])⟩
    have hdenotes : ':' ∉ (trim id).toList → isNativeAlias (trim id) = false → isContractId strKey (trim id) = true →
        trim id ≠ "" → Denotes strKey id (.contract (trim id)) := .contract
    rw [htrim] at hdenotes
    exact hdenotes hcolon hother hid hpresent

theorem Asset.Canonical.normalize (h : s.Canonical strKey) (options : NormalizeAssetIdentityOptions) :
    normalizeAssetIdentity strKey s.identity.id options = .ok s.identity :=
  (h.denotes options).1.normalize (h.denotes options).2

/-- Different assets have different ids: an id denotes its asset only. -/
theorem Asset.Canonical.id_injective {s t : Asset} (hs : s.Canonical strKey) (ht : t.Canonical strKey)
    (h : s.identity.id = t.identity.id) : s = t := by
  have hdenotes := (hs.denotes {}).1
  rw [h] at hdenotes
  exact hdenotes.unique (ht.denotes {}).1

/-- An identifier that is accepted denotes one asset, its canonical id is
accepted with the same result, and two of them have the same identity, or only
the same id, just if they denote the same asset. -/
theorem identities_of_assets {x y : String} {options options' : NormalizeAssetIdentityOptions} {a b : CanonicalAsset}
    (hx : normalizeAssetIdentity strKey x options = .ok a) (hy : normalizeAssetIdentity strKey y options' = .ok b) :
    (∃ s, Denotes strKey x s ∧ a = s.identity) ∧ (∀ o, normalizeAssetIdentity strKey a.id o = .ok a) ∧
      ∀ s t, Denotes strKey x s → Denotes strKey y t → (a = b ↔ s = t) ∧ (a.id = b.id ↔ s = t) := by
  obtain ⟨s, hs, -, rfl⟩ := denotes_of_normalizeAssetIdentity hx
  obtain ⟨t, ht, -, rfl⟩ := denotes_of_normalizeAssetIdentity hy
  refine ⟨⟨s, hs, rfl⟩, hs.canonical.normalize, fun s' t' hs' ht' => ?_⟩
  obtain rfl := hs'.unique hs
  obtain rfl := ht'.unique ht
  constructor
  · exact ⟨fun h => Asset.identity_injective h, fun h => by rw [h]⟩
  · exact ⟨hs.canonical.id_injective ht.canonical, fun h => by rw [h]⟩

/-- Where the SDK offers no checks. -/
def withoutStrKey : StrKey where
  isValidEd25519PublicKey _ := none
  isValidContract _ := none

def usdcIssuer : String := "GA5ZSEJYB37JRC5AVCIA5MOP4RHTM335X2KGX3IHOJAPP5RE34K4KZVN"

theorem usdc_normalized :
    normalizeAssetIdentity withoutStrKey (" usdc:" ++ usdcIssuer) {} = .ok (issuedIdentity "USDC" usdcIssuer) := by
  decide +kernel

/-- A code in lower case after a blank denotes the asset of its issuer, and not
the native one. -/
theorem usdc_is_not_native :
    (∀ o, normalizeAssetIdentity withoutStrKey (issuedIdentity "USDC" usdcIssuer).id o =
      .ok (issuedIdentity "USDC" usdcIssuer)) ∧ issuedIdentity "USDC" usdcIssuer ≠ nativeIdentity := by
  have hxlm : normalizeAssetIdentity withoutStrKey "XLM" { coerceCodeCase := some false } = .ok nativeIdentity := rfl
  obtain ⟨⟨s, hs, hidentity⟩, hagain, hother⟩ := identities_of_assets usdc_normalized hxlm
  refine ⟨hagain, fun h => ?_⟩
  have hnative : s = .native := (hother s .native hs (.native rfl)).1.mp h
  rw [hnative] at hidentity
  exact absurd hidentity (by decide)

end

end ZkPayroll.Assets
