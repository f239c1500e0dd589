import ModerationService.Kafka.KafkaClient

/-!
# Config — the configuration read from the environment

`config/config.hpp`.  `Config::New` and `KafkaConfig::New` look up one variable after the other and
throw at the first that is not set; two variables are numbers, for which `std::stoi` may throw.

* `load_eq_error_iff`: what `main` fails with is what is wrong with the first of the variables that
  something is wrong with (`requirements`);
* `load_of_assigned`: a configuration that is written to the environment is read back.
-/

namespace ModerationService

/-- The `const char*` of `std::getenv`: the bytes before the terminating zero. -/
structure CString where
  bytes : StdString
  no_zero : 0 ∉ bytes

/-- `std::getenv`; null is `none`. -/
abbrev Environment := String → Option CString

structure Config where
  host : StdString
  port : StdString
  database_url : StdString
  log_level : StdString
  log_format : StdString
  log_datefmt : StdString
  deriving DecidableEq

/-- The fields of `KafkaConfig`, those that name topics first. -/
structure FullKafkaConfig extends Kafka.KafkaConfig where
  brokers : StdString
  consumer_group_id : StdString
  max_retries : Int32
  retry_backoff_ms : Int32
  enable_ssl : Bool

namespace Config

open Library

/-! ## Reading -/

def notSet (name : String) : StdException :=
  ⟨name ++ " environment variable not set"⟩

/-- Look a variable up, and throw when it is not set. -/
def required (env : Environment) (name : String) : Except StdException StdString :=
  match env name with
  | none => .error (notSet name)
  | some value => .ok value.bytes

/-- `Config::New` -/
def new (env : Environment) : Except StdException Config := do
  let host ← required env "HOST"
  let port ← required env "PORT"
  let database_url ← required env "DATABASE_URL"
  let log_level ← required env "LOG_LEVEL"
  let log_format ← required env "LOG_FORMAT"
  let log_datefmt ← required env "LOG_DATEFMT"
  return { host, port, database_url, log_level, log_format, log_datefmt }

/-- `enableSslStr == "true" || enableSslStr == "1"` -/
def sslEnabled (enableSslStr : StdString) : Bool :=
  decide (enableSslStr = Utf8.encode ['t', 'r', 'u', 'e'] ∨ enableSslStr = Utf8.encode ['1'])

/-- `KafkaConfig::New` -/
def kafkaNew (env : Environment) : Except StdException FullKafkaConfig := do
  let brokers ← required env "KAFKA_BROKERS"
  let request_topic ← required env "KAFKA_REQUEST_TOPIC"
  let result_topic ← required env "KAFKA_RESULT_TOPIC"
  let consumer_group_id ← required env "KAFKA_CONSUMER_GROUP_ID"
  let kafka_max_retries ← required env "KAFKA_MAX_RETRIES"
  let max_retries ← StdLib.stoi kafka_max_retries
  let kafka_retry_backoff_ms ← required env "KAFKA_RETRY_BACKOFF_MS"
  let retry_backoff_ms ← StdLib.stoi kafka_retry_backoff_ms
  let kafka_enable_ssl ← required env "KAFKA_ENABLE_SSL"
  return {
    request_topic, result_topic, brokers, consumer_group_id, max_retries, retry_backoff_ms
    enable_ssl := sslEnabled kafka_enable_ssl }

/-- The two configurations of `main`. -/
def load (env : Environment) : Except StdException (Config × FullKafkaConfig) := do
  let config ← new env
  let kafkaConfig ← kafkaNew env
  return (config, kafkaConfig)

/-! ## What is required of the environment -/

/-- The exception, where there is one. -/
def thrown {α : Type} : Except StdException α → Option StdException
  | .ok _ => none
  | .error e => some e

/-- A variable, and what is thrown for a value of it. -/
structure Requirement where
  name : String
  check : StdString → Option StdException

/-- What is wrong with the variable. -/
def Requirement.failure (env : Environment) (r : Requirement) : Option StdException :=
  match env r.name with
  | none => some (notSet r.name)
  | some value => r.check value.bytes

def text (name : String) : Requirement :=
  ⟨name, fun _ => none⟩

def number (name : String) : Requirement :=
  ⟨name, fun value => thrown (StdLib.stoi value)⟩

/-- The variables in the order in which they are read. -/
def requirements : List Requirement :=
  [text "HOST", text "PORT", text "DATABASE_URL", text "LOG_LEVEL", text "LOG_FORMAT",
    text "LOG_DATEFMT", text "KAFKA_BROKERS", text "KAFKA_REQUEST_TOPIC",
    text "KAFKA_RESULT_TOPIC", text "KAFKA_CONSUMER_GROUP_ID", number "KAFKA_MAX_RETRIES",
    number "KAFKA_RETRY_BACKOFF_MS", text "KAFKA_ENABLE_SSL"]

section Failures

variable {α β : Type} {env : Environment} {rest : Option StdException}

/-- Where what follows throws does not depend on the value, it is what is thrown second. -/
theorem thrown_bind {x : Except StdException α} {f : α → Except StdException β}
    (h : ∀ a, thrown (f a) = rest) : thrown (x >>= f) = (thrown x).or rest := by
  cases x with
  | error e =>
      rfl
  | ok a =>
      exact h a

theorem thrown_required (name : String) :
    thrown (required env name) = (text name).failure env := by
  unfold required Requirement.failure text
  cases env name <;> rfl

theorem thrown_text {name : String} {f : StdString → Except StdException β}
    (h : ∀ value, thrown (f value) = rest) :
    thrown (required env name >>= f) = ((text name).failure env).or rest := by
  rw [thrown_bind h, thrown_required]

theorem thrown_number {name : String} {f : Int32 → Except StdException β}
    (h : ∀ n, thrown (f n) = rest) :
    thrown (required env name >>= fun value => StdLib.stoi value >>= f) =
      ((number name).failure env).or rest := by
  unfold required Requirement.failure number
  cases env name with
  | none =>
      rfl
  | some value =>
      show thrown (StdLib.stoi value.bytes >>= f) = _
      exact thrown_bind h

end Failures

theorem findSome_cons {α : Type} {f : α → Option StdException} (a : α) (as : List α) :
    (a :: as).findSome? f = (f a).or (as.findSome? f) := by
  cases h : f a <;> simp [h]

/-- What is thrown is what is wrong with the first variable that something is wrong with. -/
theorem thrown_load (env : Environment) :
    thrown (load env) = requirements.findSome? (fun r => r.failure env) := by
  -- `KafkaConfig::New` reads the last seven
  have hkafka : ∀ config : Config, thrown (kafkaNew env >>= fun kafkaConfig =>
      (pure (config, kafkaConfig) : Except StdException (Config × FullKafkaConfig))) =
        (requirements.drop 6).findSome? (fun r => r.failure env) := by
    intro config
    simp only [requirements, List.drop_succ_cons, List.drop_zero, findSome_cons,
      List.findSome?_nil, kafkaNew, bind_assoc, pure_bind]
    refine thrown_text fun _ => thrown_text fun _ => thrown_text fun _ => thrown_text fun _ =>
      thrown_number fun _ => thrown_number fun _ => thrown_text fun _ => rfl
  simp only [requirements, List.drop_succ_cons, List.drop_zero] at hkafka
  simp only [requirements, load, new, bind_assoc, pure_bind]
  rw [findSome_cons, findSome_cons, findSome_cons, findSome_cons, findSome_cons, findSome_cons]
  exact thrown_text fun _ => thrown_text fun _ => thrown_text fun _ => thrown_text fun _ =>
      thrown_text fun _ => thrown_text fun _ => hkafka _

theorem load_eq_error_iff (env : Environment) (e : StdException) :
    load env = .error e ↔ requirements.findSome? (fun r => r.failure env) = some e := by
  rw [← thrown_load]
  cases load env <;> simp [thrown]

/-! ## What is read -/

/-- The variables that are taken as they are. -/
def texts (config : Config) (kafkaConfig : FullKafkaConfig) : List (String × StdString) :=
  [("HOST", config.host), ("PORT", config.port), ("DATABASE_URL", config.database_url),
    ("LOG_LEVEL", config.log_level), ("LOG_FORMAT", config.log_format),
    ("LOG_DATEFMT", config.log_datefmt), ("KAFKA_BROKERS", kafkaConfig.brokers),
    ("KAFKA_REQUEST_TOPIC", kafkaConfig.request_topic),
    ("KAFKA_RESULT_TOPIC", kafkaConfig.result_topic),
    ("KAFKA_CONSUMER_GROUP_ID", kafkaConfig.consumer_group_id)]

def numbers (kafkaConfig : FullKafkaConfig) : List (String × Int32) :=
  [("KAFKA_MAX_RETRIES", kafkaConfig.max_retries),
    ("KAFKA_RETRY_BACKOFF_MS", kafkaConfig.retry_backoff_ms)]

/-- The environment gives the two configurations. -/
structure Reads (env : Environment) (config : Config) (kafkaConfig : FullKafkaConfig) : Prop where
  texts : ∀ a ∈ texts config kafkaConfig, (env a.1).map CString.bytes = some a.2
  /-- what follows the number is ignored -/
  numbers : ∀ a ∈ numbers kafkaConfig, ∃ value, env a.1 = some value ∧
    Decimal.parseInt value.bytes = some a.2.toInt
  ssl : ∃ value, env "KAFKA_ENABLE_SSL" = some value ∧
    kafkaConfig.enable_ssl = sslEnabled value.bytes

section Values

variable {β : Type} {env : Environment} {b : β}

theorem required_bind_eq_ok {name : String} {f : StdString → Except StdException β} :
    (required env name >>= f) = .ok b ↔
      ∃ value, (env name).map CString.bytes = some value ∧ f value = .ok b := by
  unfold required
  cases env name with
  | none =>
      simp [bind, Except.bind]
  | some value =>
      simp [bind, Except.bind]

/-- `stoi` succeeds when the number at the front is an `int`. -/
theorem stoi_eq_ok_iff {s : StdString} {n : Int32} :
    StdLib.stoi s = .ok n ↔ Decimal.parseInt s = some n.toInt := by
  have hlow : -2 ^ 31 ≤ n.toInt := n.le_toInt
  have hhigh : n.toInt < 2 ^ 31 := n.toInt_lt
  unfold StdLib.stoi
  cases hparse : Decimal.parseInt s with
  | none =>
      simp
  | some m =>
      by_cases hrange : -2 ^ 31 ≤ m ∧ m < 2 ^ 31
      · have hofInt : (Int32.ofInt m).toInt = m := Int32.toInt_ofInt_of_le hrange.1 hrange.2
        simp only [hrange, and_self, if_true, Except.ok.injEq, Option.some.injEq]
        rw [← Int32.toInt_inj, hofInt]
      · have hne : m ≠ n.toInt := by
          rintro rfl
          exact hrange ⟨hlow, hhigh⟩
        simp only [if_neg hrange, reduceCtorEq, Option.some.injEq, hne]

theorem stoi_bind_eq_ok {s : StdString} {f : Int32 → Except StdException β} :
    (StdLib.stoi s >>= f) = .ok b ↔
      ∃ n : Int32, Decimal.parseInt s = some n.toInt ∧ f n = .ok b := by
  simp only [← stoi_eq_ok_iff]
  cases StdLib.stoi s <;> simp [bind, Except.bind]

end Values

theorem load_eq_ok_iff (env : Environment) (config : Config) (kafkaConfig : FullKafkaConfig) :
    load env = .ok (config, kafkaConfig) ↔ Reads env config kafkaConfig := by
  -- one existential for each variable that is read, and one more for each number
  simp only [load, new, kafkaNew, bind_assoc, pure_bind, required_bind_eq_ok, stoi_bind_eq_ok]
  constructor
  · rintro ⟨host, hhost, port, hport, url, hurl, level, hlevel, format, hformat, datefmt, hdatefmt,
      brokers, hbrokers, request, hrequest, result, hresult, group, hgroup, retriesText, hretries,
      retries, hretriesParse, backoffText, hbackoff, backoff, hbackoffParse, ssl, hssl, hdone⟩
    cases hdone
    refine ⟨?_, ?_, ?_⟩
    · simp only [texts, List.forall_mem_cons, List.not_mem_nil, false_implies, implies_true, *,
        and_self]
    · rcases Option.map_eq_some_iff.1 hretries with ⟨value, hvalue, rfl⟩
      rcases Option.map_eq_some_iff.1 hbackoff with ⟨value', hvalue', rfl⟩
      simp only [numbers, List.forall_mem_cons, List.not_mem_nil, false_implies, implies_true,
        and_true]
      exact ⟨⟨value, hvalue, hretriesParse⟩, value', hvalue', hbackoffParse⟩
    · rcases Option.map_eq_some_iff.1 hssl with ⟨value, hvalue, rfl⟩
      exact ⟨value, hvalue, rfl⟩
  · rintro ⟨htexts, hnumbers, value, hssl, hsslEnabled⟩
    simp only [texts, List.forall_mem_cons, List.not_mem_nil, false_implies, implies_true,
      and_true] at htexts
    simp only [numbers, List.forall_mem_cons, List.not_mem_nil, false_implies, implies_true,
      and_true] at hnumbers
    rcases htexts with ⟨hhost, hport, hurl, hlevel, hformat, hdatefmt, hbrokers, hrequest, hresult,
      hgroup⟩
    rcases hnumbers with ⟨⟨retries, hretries, hretriesParse⟩, backoff, hbackoff, hbackoffParse⟩
    refine ⟨_, hhost, _, hport, _, hurl, _, hlevel, _, hformat, _, hdatefmt, _, hbrokers, _,
      hrequest, _, hresult, _, hgroup, _, by rw [hretries]; rfl, _, hretriesParse, _,
      by rw [hbackoff]; rfl, _, hbackoffParse, _, by rw [hssl]; rfl, ?_⟩
    rw [← hsslEnabled]
    rfl

/-! ## Writing a configuration -/

/-- The environment in which a configuration is written down. -/
def assignments (config : Config) (kafkaConfig : FullKafkaConfig) : List (String × StdString) :=
  texts config kafkaConfig ++
    (numbers kafkaConfig).map (fun a => (a.1, StdLib.toString32 a.2)) ++
      [("KAFKA_ENABLE_SSL", Utf8.encode
        (if kafkaConfig.enable_ssl then ['t', 'r', 'u', 'e'] else ['f', 'a', 'l', 's', 'e']))]

/-- A configuration that is written to the environment is read back. -/
theorem load_of_assigned {env : Environment} {config : Config} {kafkaConfig : FullKafkaConfig}
    (h : ∀ a ∈ assignments config kafkaConfig, (env a.1).map CString.bytes = some a.2) :
    load env = .ok (config, kafkaConfig) := by
  rw [load_eq_ok_iff]
  refine ⟨?_, ?_, ?_⟩
  · intro a ha
    exact h a (by simp [assignments, ha])
  · intro a ha
    have hwritten := h (a.1, StdLib.toString32 a.2)
      (List.mem_append_left _ (List.mem_append_right _ (List.mem_map_of_mem ha)))
    rcases Option.map_eq_some_iff.1 hwritten with ⟨value, hvalue, hbytes⟩
    refine ⟨value, hvalue, ?_⟩
    -- `stoi` reads back what `to_string` writes
    rw [hbytes, ← stoi_eq_ok_iff]
    exact StdLib.stoi_toString32 a.2
  · have hwritten := h _ (List.mem_append_right _ (List.mem_singleton_self _))
    rcases Option.map_eq_some_iff.1 hwritten with ⟨value, hvalue, hbytes⟩
    refine ⟨value, hvalue, ?_⟩
    rw [hbytes]
    cases kafkaConfig.enable_ssl <;> decide

/-- What `main` reads: it fails with what is wrong with the first variable that something is wrong
with, and succeeds with the configuration the environment gives. -/
theorem load_spec (env : Environment) :
    (∀ e, load env = .error e ↔ requirements.findSome? (fun r => r.failure env) = some e) ∧
    (∀ config kafkaConfig,
      load env = .ok (config, kafkaConfig) ↔ Reads env config kafkaConfig) ∧
    (∀ config kafkaConfig,
      (∀ a ∈ assignments config kafkaConfig, (env a.1).map CString.bytes = some a.2) →
        load env = .ok (config, kafkaConfig)) :=
  ⟨load_eq_error_iff env, load_eq_ok_iff env, fun _ _ => load_of_assigned⟩

def sampleConfig : Config where
  host := [0x30]
  port := [0x38, 0x30]
  database_url := [0x64, 0x62]
  log_level := [0x49]
  log_format := []
  log_datefmt := []

def sampleKafkaConfig : FullKafkaConfig where
  request_topic := [0x71]
  result_topic := [0x72]
  brokers := [0x6B]
  consumer_group_id := [0x67]
  max_retries := -1
  retry_backoff_ms := 100
  enable_ssl := true

def sampleEnvironment : Environment := fun name =>
  match (assignments sampleConfig sampleKafkaConfig).lookup name with
  | none => none
  | some bytes => if h : 0 ∉ bytes then some ⟨bytes, h⟩ else none

theorem load_spec_sample :
    load sampleEnvironment = .ok (sampleConfig, sampleKafkaConfig) := by
  refine (load_spec sampleEnvironment).2.2 sampleConfig sampleKafkaConfig ?_
  decide +kernel

end Config
end ModerationService
