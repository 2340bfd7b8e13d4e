import EgressAgent.Lib.PyVal

/-!
# The token file

`FileLoginTokenProvider`: the reading of the file and the three accessors, which
each read it again. A file is known by what `json.loads` makes of its text.

`token_file_usable_iff`: the accessors keep what their contracts promise if and only
if there is no file, its text is not JSON, or it is an object in which the two
values are strings as soon as both are there. `odd_token_files`: they raise for
`null`, index a list, and send a number. `credentialId_of_getToken`: whatever the
file, the id that is reported is the one that is sent.
-/

namespace EgressAgent

open Py

namespace TokenFile

def mcdIdAttr : String := "mcd_id"
def mcdTokenAttr : String := "mcd_token"
def noTokenId : String := "no-token-id"
def noTokenSecret : String := "no-token-secret"

def xMcdId : String := "x-mcd-id"
def xMcdToken : String := "x-mcd-token"

def attrNameKeyId : String := "authentication_key_id"
def attrNameAuthMethod : String := "authentication_method"
def attrNameTokenFilePath : String := "token_file_path"

def authMethodTokenFile : String := "token_file"

/-- What the path leads to, if anything. -/
inductive File
  | absent
  | text (loads : Except PyExc PyVal)

/-- `_read_token_file`, with `None` as a value. -/
def readTokenFile : File → Except PyExc PyVal
  | .absent => return .none
  | .text (.error ex) => if ex.typeName = "JSONDecodeError" then return .none else throw ex
  | .text (.ok keyJson) => do
      -- The second test is made only if the first one succeeds.
      let hasId ← keyJson.contains mcdIdAttr
      let hasBoth ← if hasId then keyJson.contains mcdTokenAttr else pure false
      if hasBoth then
        return keyJson
      -- The warning shows the keys.
      let _ ← keyJson.keys
      return .none

def getCredentialId (file : File) : Except PyExc PyVal := do
  let keyJson ← readTokenFile file
  if keyJson.truthy then
    return ← keyJson.getItem mcdIdAttr
  return .str noTokenId

def getToken (file : File) : Except PyExc Dict := do
  let keyJson ← readTokenFile file
  if keyJson.truthy then
    return [(xMcdId, ← keyJson.getItem mcdIdAttr), (xMcdToken, ← keyJson.getItem mcdTokenAttr)]
  return [(xMcdId, .str noTokenId), (xMcdToken, .str noTokenSecret)]

/-- `LoginTokenProvider.get_credential_info`, for a provider with these two. -/
def baseCredentialInfo (credentialId : Except PyExc PyVal) (authenticationMethod : String) :
    Except PyExc Dict := do
  return [(attrNameKeyId, ← credentialId), (attrNameAuthMethod, .str authenticationMethod)]

def getCredentialInfo (filePath : String) (file : File) : Except PyExc Dict := do
  let info ← baseCredentialInfo (getCredentialId file) authMethodTokenFile
  return Dict.set info attrNameTokenFilePath (.str filePath)

/-- The two values of an object, where they are strings. -/
def credentials (keyJson : Dict) : Option (String × String) :=
  match keyJson.lookup mcdIdAttr, keyJson.lookup mcdTokenAttr with
  | some (.str id), some (.str token) => some (id, token)
  | _, _ => none

/-- The id and the secret to send: those of the file, where they are strings. -/
def File.sent : File → String × String
  | .text (.ok (.dict keyJson)) => (credentials keyJson).getD (noTokenId, noTokenSecret)
  | _ => (noTokenId, noTokenSecret)

/-- What the accessors promise of a file. -/
structure Usable (filePath : String) (file : File) : Prop where
  read : ∃ keyJson, readTokenFile file = .ok keyJson ∧ (keyJson = .none ∨
    ∃ kvs, keyJson = .dict kvs ∧ Dict.contains kvs mcdIdAttr = true ∧
      Dict.contains kvs mcdTokenAttr = true)
  token : getToken file = .ok [(xMcdId, .str file.sent.1), (xMcdToken, .str file.sent.2)]
  credentialId : getCredentialId file = .ok (.str file.sent.1)
  credentialInfo : ∃ info, getCredentialInfo filePath file = .ok info

/-- If both values are there, both are strings. -/
def BothStrings (keyJson : Dict) : Prop :=
  Dict.contains keyJson mcdIdAttr = true → Dict.contains keyJson mcdTokenAttr = true →
    (credentials keyJson).isSome = true

/-- The files that the reading expects. -/
def File.Expected : File → Prop
  | .absent => True
  | .text (.error ex) => ex.typeName = "JSONDecodeError"
  | .text (.ok (.dict keyJson)) => BothStrings keyJson
  | .text (.ok _) => False

end TokenFile

open TokenFile

namespace TokenFileLemmas

variable {keyJson : Dict} {file : File} {filePath : String}

/-- An object is returned if it has both keys. -/
theorem readTokenFile_dict : readTokenFile (.text (.ok (.dict keyJson))) =
    .ok (if Dict.contains keyJson mcdIdAttr && Dict.contains keyJson mcdTokenAttr then
      .dict keyJson else .none) := by
  cases hid : Dict.contains keyJson mcdIdAttr with
  | false => simp [readTokenFile, PyVal.contains, PyVal.keys, hid, bind, Except.bind, pure, Except.pure]
  | true =>
    cases htoken : Dict.contains keyJson mcdTokenAttr <;>
      simp [readTokenFile, PyVal.contains, PyVal.keys, hid, htoken, bind, Except.bind, pure, Except.pure]

/-- Another value is returned as it is, since the warning raises. -/
theorem eq_of_readTokenFile {v keyJson : PyVal} (hv : v.isDict = false)
    (h : readTokenFile (.text (.ok v)) = .ok keyJson) : keyJson = v := by
  simp only [readTokenFile, PyVal.keys_of_not_isDict hv] at h
  cases hid : v.contains mcdIdAttr with
  | error ex =>
    rw [hid] at h
    cases h
  | ok hasId =>
    rw [hid] at h
    cases hasId with
    | false => cases h
    | true =>
      cases htoken : v.contains mcdTokenAttr with
      | error ex =>
        simp only [htoken] at h
        cases h
      | ok hasToken =>
        simp only [htoken] at h
        cases hasToken with
        | false => cases h
        | true =>
          cases h
          rfl

/-- The reading of another value raises or gives a list or a text. -/
theorem not_read_other {v : PyVal} (hv : v.isDict = false) :
    ¬ ∃ keyJson, readTokenFile (.text (.ok v)) = .ok keyJson ∧ (keyJson = .none ∨
      ∃ kvs, keyJson = .dict kvs ∧ Dict.contains kvs mcdIdAttr = true ∧
        Dict.contains kvs mcdTokenAttr = true) := by
  rintro ⟨keyJson, hread, hkind⟩
  obtain rfl := eq_of_readTokenFile hv hread
  rcases hkind with rfl | ⟨kvs, rfl, -⟩
  · cases hread
  · cases hv

/-- Without a usable file the placeholders are sent. -/
theorem usable_of_none (hread : readTokenFile file = .ok .none)
    (hsent : file.sent = (noTokenId, noTokenSecret)) : Usable filePath file := by
  have hid : getCredentialId file = .ok (.str noTokenId) := by
    rw [getCredentialId, hread]
    rfl
  refine ⟨⟨.none, hread, .inl rfl⟩, ?_, ?_, ?_⟩
  · rw [getToken, hread, hsent]
    rfl
  · rw [hid, hsent]
  · rw [getCredentialInfo, hid]
    exact ⟨_, rfl⟩

theorem credentials_of_lookup {id token : PyVal} (hid : keyJson.lookup mcdIdAttr = some id)
    (htoken : keyJson.lookup mcdTokenAttr = some token) :
    (credentials keyJson).isSome = true ↔ ∃ i t, id = .str i ∧ token = .str t ∧
      credentials keyJson = some (i, t) := by
  unfold credentials
  rw [hid, htoken]
  constructor
  · intro hsome
    split at hsome
    · next i t hi ht =>
      cases hi
      cases ht
      exact ⟨i, t, rfl, rfl, rfl⟩
    · cases hsome
  · rintro ⟨i, t, rfl, rfl, -⟩
    rfl

theorem credentials_eq_none (h : (Dict.contains keyJson mcdIdAttr &&
    Dict.contains keyJson mcdTokenAttr) = false) : credentials keyJson = none := by
  unfold credentials
  cases hid : keyJson.lookup mcdIdAttr with
  | none => rfl
  | some id =>
    cases htoken : keyJson.lookup mcdTokenAttr with
    | none => cases id <;> rfl
    | some token => simp [Dict.contains, hid, htoken] at h

/-- What the accessors give for an object with both keys. -/
theorem accessors_dict {id token : PyVal} (hread : readTokenFile file = .ok (.dict keyJson))
    (hid : keyJson.lookup mcdIdAttr = some id)
    (htoken : keyJson.lookup mcdTokenAttr = some token) :
    getToken file = .ok [(xMcdId, id), (xMcdToken, token)] ∧ getCredentialId file = .ok id := by
  have htruthy : (PyVal.dict keyJson).truthy = true := by
    cases keyJson with
    | nil => cases hid
    | cons kv keyJson => rfl
  constructor
  · rw [getToken, hread]
    simp [bind, Except.bind, pure, Except.pure, htruthy, PyVal.getItem_dict hid,
      PyVal.getItem_dict htoken]
  · rw [getCredentialId, hread]
    simp [bind, Except.bind, htruthy, PyVal.getItem_dict hid]

/-- An object with both keys is usable if its values are strings. -/
theorem usable_dict_iff {id token : PyVal} (hid : keyJson.lookup mcdIdAttr = some id)
    (htoken : keyJson.lookup mcdTokenAttr = some token) :
    Usable filePath (.text (.ok (.dict keyJson))) ↔ (credentials keyJson).isSome = true := by
  have hcontains : Dict.contains keyJson mcdIdAttr = true ∧
      Dict.contains keyJson mcdTokenAttr = true := by
    simp [Dict.contains, hid, htoken]
  have hread : readTokenFile (.text (.ok (.dict keyJson))) = .ok (.dict keyJson) := by
    rw [readTokenFile_dict, hcontains.1, hcontains.2]
    rfl
  obtain ⟨htokens, hcredential⟩ := accessors_dict hread hid htoken
  rw [credentials_of_lookup hid htoken]
  constructor
  · intro h
    have hpair := htokens.symm.trans h.token
    simp only [Except.ok.injEq, List.cons.injEq, Prod.mk.injEq, true_and, and_true] at hpair
    refine ⟨_, _, hpair.1, hpair.2, ?_⟩
    unfold credentials
    rw [hid, htoken, hpair.1, hpair.2]
  · rintro ⟨i, t, rfl, rfl, hsome⟩
    have hsent : (File.text (.ok (.dict keyJson))).sent = (i, t) := by
      rw [File.sent, hsome]
      rfl
    refine ⟨⟨_, hread, .inr ⟨keyJson, rfl, hcontains⟩⟩, ?_, ?_, ?_⟩
    · rw [htokens, hsent]
    · rw [hcredential, hsent]
    · rw [getCredentialInfo, hcredential]
      exact ⟨_, rfl⟩

theorem usable_object_iff :
    Usable filePath (.text (.ok (.dict keyJson))) ↔ BothStrings keyJson := by
  cases hboth : Dict.contains keyJson mcdIdAttr && Dict.contains keyJson mcdTokenAttr with
  | false =>
    have hread : readTokenFile (.text (.ok (.dict keyJson))) = .ok .none := by
      rw [readTokenFile_dict, hboth]
      rfl
    have hsent : (File.text (.ok (.dict keyJson))).sent = (noTokenId, noTokenSecret) := by
      rw [File.sent, credentials_eq_none hboth]
      rfl
    refine iff_of_true (usable_of_none hread hsent) fun hid htoken => ?_
    simp [hid, htoken] at hboth
  | true =>
    obtain ⟨hid, htoken⟩ := Bool.and_eq_true_iff.mp hboth
    obtain ⟨id, hid'⟩ := Option.isSome_iff_exists.mp hid
    obtain ⟨token, htoken'⟩ := Option.isSome_iff_exists.mp htoken
    rw [usable_dict_iff hid' htoken']
    exact ⟨fun h _ _ => h, fun h => h hid htoken⟩

end TokenFileLemmas

open TokenFileLemmas

/-- The accessors keep their promises if and only if the file is absent, is not
JSON, or is an object in which the two values are strings if both are there. -/
theorem token_file_usable_iff (filePath : String) (file : File) :
    Usable filePath file ↔ file.Expected := by
  cases file with
  | absent => exact iff_of_true (usable_of_none rfl rfl) trivial
  | text loads =>
    cases loads with
    | error ex =>
      by_cases hex : ex.typeName = "JSONDecodeError"
      · exact iff_of_true (usable_of_none (if_pos hex) rfl) hex
      · refine iff_of_false (fun h => ?_) hex
        obtain ⟨keyJson, hread, -⟩ := h.read
        have hraises : readTokenFile (.text (.error ex)) = .error ex := if_neg hex
        cases hraises.symm.trans hread
    | ok v =>
      cases hv : v.isDict with
      | false =>
        refine iff_of_false (fun h => not_read_other hv h.read) ?_
        cases v with
        | dict _ => cases hv
        | _ => exact id
      | true =>
        obtain ⟨keyJson, rfl⟩ := PyVal.isDict_iff.mp hv
        exact usable_object_iff

/-- Whatever the file, the id that is reported is the one that is sent, if a
token is. -/
theorem credentialId_of_getToken {file : File} {headers : Dict} (h : getToken file = .ok headers) :
    ∃ id, getCredentialId file = .ok id ∧ headers.lookup xMcdId = some id := by
  unfold getToken at h
  unfold getCredentialId
  cases hread : readTokenFile file with
  | error ex =>
    rw [hread] at h
    cases h
  | ok keyJson =>
    rw [hread] at h
    cases htruthy : keyJson.truthy with
    | false =>
      simp only [bind, Except.bind, htruthy] at h ⊢
      cases h
      exact ⟨_, rfl, rfl⟩
    | true =>
      simp only [bind, Except.bind, htruthy, if_true] at h ⊢
      cases hid : keyJson.getItem mcdIdAttr with
      | error ex => simp [hid] at h
      | ok id =>
        cases htoken : keyJson.getItem mcdTokenAttr with
        | error ex => simp [hid, htoken] at h
        | ok token =>
          simp only [hid, htoken] at h ⊢
          cases h
          exact ⟨id, rfl, rfl⟩

/-- `null` makes every accessor raise, a list with the two names makes
`get_token` raise, and a number is sent. -/
theorem odd_token_files :
    ¬ Usable "token.json" (.text (.ok .none)) ∧
      getCredentialId (.text (.ok .none)) =
        .error ⟨"TypeError", "argument of type 'NoneType' is not iterable"⟩ ∧
      getToken (.text (.ok (.list [.str "mcd_id", .str "mcd_token"]))) =
        .error ⟨"TypeError", "list indices must be integers or slices, not str"⟩ ∧
      getToken (.text (.ok (.dict [("mcd_id", .int 5), ("mcd_token", .str "a-secret")]))) =
        .ok [("x-mcd-id", .int 5), ("x-mcd-token", .str "a-secret")] := by
  refine ⟨fun h => ?_, rfl, rfl, rfl⟩
  obtain ⟨keyJson, hread, -⟩ := h.read
  cases hread

end EgressAgent
