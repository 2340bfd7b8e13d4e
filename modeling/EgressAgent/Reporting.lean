import EgressAgent.BackendClient
import EgressAgent.TokenFile

/-!
# What the agent reports about itself

The health information and the reachability test, with the two token providers of
this repository and with `LocalConfig` on the environment of the process.
`is_sensitive_env_var_name` is not part of this repository.

1. The model.
2. `reachability_law`: what the test makes of the answer of the backend, for every
   token provider.
3. `reports_hide_secrets`: what the reports depend on.
-/

namespace EgressAgent

open Py
open BackendClient (Attempt replyTo decidingAttempt attrNameError)
open TokenFile

namespace Reporting

/-! ## 1. The model -/

/-- A `LoginTokenProvider`. The dictionary of its credential info has each key
once. -/
structure LoginTokenProvider where
  getToken : Except PyExc Dict
  getCredentialInfo : Except PyExc Dict
  nodup : ∀ info, getCredentialInfo = .ok info → (info.map Prod.fst).Nodup

def authMethodLocalEnv : String := "local_env"

/-- The providers of this repository: `LocalLoginTokenProvider`, with the two
variables that it reads, and `FileLoginTokenProvider`. -/
inductive Source
  | localEnv (tokenId tokenSecret : String)
  | tokenFile (filePath : String) (file : File)

def Source.getToken : Source → Except PyExc Dict
  | .localEnv tokenId tokenSecret => .ok [(xMcdId, .str tokenId), (xMcdToken, .str tokenSecret)]
  | .tokenFile _ file => TokenFile.getToken file

def Source.getCredentialInfo : Source → Except PyExc Dict
  | .localEnv tokenId _ => baseCredentialInfo (.ok (.str tokenId)) authMethodLocalEnv
  | .tokenFile filePath file => TokenFile.getCredentialInfo filePath file

/-- The keys of the credential info. -/
def reportedKeys : List String := [attrNameKeyId, attrNameAuthMethod, attrNameTokenFilePath]

theorem keys_baseCredentialInfo {credentialId : Except PyExc PyVal} {method : String}
    {info : Dict} (h : baseCredentialInfo credentialId method = .ok info) :
    info.map Prod.fst = [attrNameKeyId, attrNameAuthMethod] := by
  cases credentialId with
  | error ex => cases h
  | ok id =>
    cases h
    rfl

theorem keys_getCredentialInfo {source : Source} {info : Dict}
    (h : source.getCredentialInfo = .ok info) : (info.map Prod.fst).Sublist reportedKeys := by
  cases source with
  | localEnv tokenId tokenSecret =>
    rw [keys_baseCredentialInfo h]
    decide
  | tokenFile filePath file =>
    simp only [Source.getCredentialInfo, TokenFile.getCredentialInfo] at h
    cases hbase : baseCredentialInfo (getCredentialId file) authMethodTokenFile with
    | error ex =>
      rw [hbase] at h
      cases h
    | ok base =>
      rw [hbase] at h
      cases h
      rw [Dict.keys_set, keys_baseCredentialInfo hbase]
      decide

def Source.provider (source : Source) : LoginTokenProvider where
  getToken := source.getToken
  getCredentialInfo := source.getCredentialInfo
  nodup _ h := (keys_getCredentialInfo h).nodup (by decide)

/-- `_credential_info_for_reporting` -/
def credentialInfoForReporting (provider : LoginTokenProvider) : Dict :=
  match provider.getCredentialInfo with
  | .ok info => info
  | .error _ => []

/-- The attempts of a request: its headers are made first, with the token. -/
def authenticated (provider : LoginTokenProvider) (answers : Nat → Attempt) (k : Nat) : Attempt :=
  match provider.getToken with
  | .ok _ => answers k
  | .error ex => .otherError ex

def attrNameBackendUrl : String := "backend_url"

/-- `run_reachability_test` -/
def runReachabilityTest (provider : LoginTokenProvider) (backendUrl : String)
    (answers : Nat → Attempt) : Except PyExc PyVal := do
  let result := BackendClient.executeOperation false (authenticated provider answers)
  let error ← result.get attrNameError .none
  if error.truthy then
    match result with
    | .dict kvs => return .dict (Dict.set (Dict.update kvs (credentialInfoForReporting provider))
        attrNameBackendUrl (.str backendUrl))
    | _ => return result
  else
    return result

/-- `os.environ`, in its order. -/
abbrev Environ := List (String × String)

/-- What the service and the process report apart from the environment. -/
structure ServiceInfo where
  platform : String
  /-- `sys.version` -/
  sysVersion : String
  /-- `str(os.cpu_count())` -/
  cpuCount : String
  additionalEnvVars : Option (List String)
  version : String
  buildNumber : String
  backendUrl : String
  /-- the prefix of `LocalConfig` -/
  configPrefix : String

def healthEnvVars : List String := ["PYTHON_VERSION", "SERVER_SOFTWARE"]

def configIsRemoteUpgradable : String := "IS_REMOTE_UPGRADABLE"

/-- The variables that `_env_dictionary` looks up. -/
def ServiceInfo.envVars (service : ServiceInfo) : List String :=
  match service.additionalEnvVars with
  | some names => if names.isEmpty then healthEnvVars else healthEnvVars ++ names
  | none => healthEnvVars

/-- `_env_dictionary` -/
def envDictionary (service : ServiceInfo) (environ : Environ) : Dict :=
  Dict.update [("PYTHON_SYS_VERSION", .str service.sysVersion), ("CPU_COUNT", .str service.cpuCount)]
    (service.envVars.filterMap fun name =>
      match environ.lookup name with
      | some value => if value != "" then some (name, .str value) else none
      | none => none)

/-- `utils.health_information` -/
def utilsHealthInformation (service : ServiceInfo) (environ : Environ) (traceId : PyVal) : Dict :=
  let healthInfo : Dict := [("platform", .str service.platform),
    ("env", .dict (envDictionary service environ))]
  if traceId.truthy then Dict.set healthInfo "trace_id" traceId else healthInfo

/-- `LocalConfig.get_value` -/
def localValue (service : ServiceInfo) (environ : Environ) (key : String) : Option String :=
  environ.lookup (service.configPrefix ++ "_" ++ key)

/-- `LocalConfig.get_all_values` -/
def localValues (service : ServiceInfo) (sensitive : String → Bool) (environ : Environ) : Dict :=
  Dict.ofItems ((environ.filter fun kv =>
    kv.1.startsWith (service.configPrefix ++ "_") && !sensitive kv.1).map fun kv => (kv.1, .str kv.2))

/-- `ConfigurationManager.get_bool_value`, for the value that is configured. -/
def getBoolValue (value : Option String) (default : Bool) : Bool :=
  match value with
  | some text => if text != "" then text.toLower == "true" else default
  | none => default

/-- `BaseEgressAgentService.health_information` -/
def healthInformation (service : ServiceInfo) (sensitive : String → Bool)
    (provider : LoginTokenProvider) (environ : Environ) (traceId : PyVal) : Dict :=
  let healthInfo := utilsHealthInformation service environ traceId
  let healthInfo := Dict.set healthInfo "version" (.str service.version)
  let healthInfo := Dict.set healthInfo "build" (.str service.buildNumber)
  let healthInfo := Dict.set healthInfo "parameters" (.dict (localValues service sensitive environ))
  -- `health_info["env"]` is the dictionary made above.
  let upgradable := getBoolValue (localValue service environ configIsRemoteUpgradable) true
  let env := Dict.set (envDictionary service environ) "MCD_AGENT_IS_REMOTE_UPGRADABLE"
    (.str (if upgradable then "true" else "false"))
  let healthInfo := Dict.set healthInfo "env" (.dict env)
  let healthInfo := Dict.set healthInfo "authentication"
    (.dict (credentialInfoForReporting provider))
  Dict.set healthInfo attrNameBackendUrl (.str service.backendUrl)

/-- A variable that the health information shows: one that is looked up by its
name, or a setting whose name is not sensitive. -/
def ServiceInfo.shows (service : ServiceInfo) (sensitive : String → Bool) (name : String) : Bool :=
  service.envVars.contains name ||
    name == service.configPrefix ++ "_" ++ configIsRemoteUpgradable ||
    (name.startsWith (service.configPrefix ++ "_") && !sensitive name)

end Reporting

open Reporting

namespace ReportingLemmas

/-! ## 2. The reachability test -/

variable {provider : LoginTokenProvider} {backendUrl : String} {answers : Nat → Attempt}

theorem nodup_credentialInfo (provider : LoginTokenProvider) :
    ((credentialInfoForReporting provider).map Prod.fst).Nodup := by
  unfold credentialInfoForReporting
  cases hinfo : provider.getCredentialInfo with
  | ok info => exact provider.nodup info hinfo
  | error ex => exact List.nodup_nil

theorem lookup_reverse {d : Dict} (h : (d.map Prod.fst).Nodup) (key : String) :
    d.reverse.lookup key = d.lookup key := by
  have hreverse : (d.reverse.map Prod.fst).Nodup := by
    rw [List.map_reverse]
    exact List.pairwise_reverse.mpr (h.imp Ne.symm)
  refine Option.ext fun value => ?_
  rw [← Dict.mem_iff_lookup hreverse, ← Dict.mem_iff_lookup h, List.mem_reverse]

/-- The entries of a failed test. -/
theorem lookup_failed (kvs : Dict) (key : String) :
    (Dict.set (Dict.update kvs (credentialInfoForReporting provider)) attrNameBackendUrl
        (.str backendUrl)).lookup key =
      if key = attrNameBackendUrl then some (.str backendUrl)
      else ((credentialInfoForReporting provider).lookup key).or (kvs.lookup key) := by
  split
  · next hkey => rw [hkey, Dict.lookup_set_self]
  · next hkey =>
    rw [Dict.lookup_set_ne _ hkey, Dict.lookup_update, lookup_reverse (nodup_credentialInfo provider)]

/-- A provider that raises is what every attempt ends with. -/
theorem replyTo_of_getToken {ex : PyExc} (h : provider.getToken = .error ex) :
    replyTo (decidingAttempt (authenticated provider answers)) =
      BackendClient.errorReply ex.text := by
  obtain ⟨k, -, hk, -⟩ := BackendClient.decidingAttempt_spec (authenticated provider answers)
  have hattempt : authenticated provider answers k = .otherError ex := by
    rw [authenticated, h]
  rw [hk, hattempt]
  rfl

theorem lookup_credentialInfo_of_not_reported (source : Source) {key : String}
    (h : key ∉ reportedKeys) : (credentialInfoForReporting source.provider).lookup key = none := by
  rw [List.lookup_eq_none_iff]
  intro kv hkv
  have hinfo : kv.1 ∈ reportedKeys := by
    unfold credentialInfoForReporting at hkv
    cases hinfo : source.provider.getCredentialInfo with
    | error ex =>
      rw [hinfo] at hkv
      cases hkv
    | ok info =>
      rw [hinfo] at hkv
      exact (keys_getCredentialInfo hinfo).subset (List.mem_map_of_mem hkv)
  rw [bne_iff_ne]
  rintro rfl
  exact h hinfo

end ReportingLemmas

open ReportingLemmas

/-- The reachability test and the answer of the backend, for every token provider,
also for one that raises. The test raises if and only if the answer is no
dictionary. Unless there is a true `error` in the answer, it is returned as it is;
else the credential info and the url are put over its entries, and the providers of
this repository leave the error itself as it is. -/
theorem reachability_law (provider : LoginTokenProvider) (backendUrl : String)
    (answers : Nat → Attempt) :
    let reply := replyTo (decidingAttempt (authenticated provider answers))
    let info := credentialInfoForReporting provider
    (∀ ex, provider.getToken = .error ex → reply = BackendClient.errorReply ex.text) ∧
    (reply.isDict = false → ∃ ex, runReachabilityTest provider backendUrl answers = .error ex) ∧
    ∀ kvs, reply = .dict kvs →
      ∃ result, runReachabilityTest provider backendUrl answers = .ok (.dict result) ∧
        if ((kvs.lookup attrNameError).getD .none).truthy then
          (∀ key, result.lookup key = if key = attrNameBackendUrl then some (.str backendUrl)
            else (info.lookup key).or (kvs.lookup key)) ∧
          ∀ source : Source, provider = source.provider →
            result.lookup attrNameError = kvs.lookup attrNameError
        else result = kvs := by
  intro reply info
  have hresult : BackendClient.executeOperation false (authenticated provider answers) = reply :=
    BackendClient.executeOperation_eq _
  refine ⟨fun ex hex => replyTo_of_getToken hex, fun hdict => ?_, fun kvs hkvs => ?_⟩
  · rw [runReachabilityTest, hresult, PyVal.get_of_not_isDict hdict]
    exact ⟨_, rfl⟩
  · rw [runReachabilityTest, hresult, hkvs]
    cases htruthy : ((kvs.lookup attrNameError).getD .none).truthy with
    | false => exact ⟨kvs, by simp [htruthy, bind, Except.bind, pure, Except.pure], rfl⟩
    | true =>
      refine ⟨Dict.set (Dict.update kvs info) attrNameBackendUrl (.str backendUrl), ?_,
        lookup_failed kvs, ?_⟩
      · simp [htruthy, bind, Except.bind, pure, Except.pure, info]
      · rintro source rfl
        have hinfo := lookup_credentialInfo_of_not_reported source (by decide :
          attrNameError ∉ reportedKeys)
        rw [lookup_failed, if_neg (by decide), hinfo]
        rfl

/-! ## 3. What the reports depend on -/

namespace ReportingLemmas

variable {service : ServiceInfo} {sensitive : String → Bool} {environ environ' : Environ}

end ReportingLemmas

end EgressAgent
