import Mathlib.Tactic.Common
import TopicReader.Proofs.Text.Utf8Reading
import TopicReader.Settings.Connection

/-! From settings to a connection. The rules that settings have to keep leave one thing that can be
missing later, the password; with it the properties of the connection are those that the settings ask
for, each of them once. -/
namespace TopicReader

/-- Where all names of a list are different, a text in upper case is the name of one entry only. -/
theorem Text.find?_isUpperName {α : Type} {all : List α} {name : α → String} {a : α} {s : List Char}
    (apart : ∀ a ∈ all, ∀ b ∈ all, name a = name b → a = b) (listed : a ∈ all) :
    all.find? (fun b => isUpperName (name b) s) = some a ↔ isUpperName (name a) s = true := by
  have named_of_found {b : α} (found : all.find? (fun b => isUpperName (name b) s) = some b) :
      isUpperName (name b) s = true := by
    have named := List.find?_some found
    exact named
  constructor
  · exact named_of_found
  · intro named
    cases found : all.find? (fun b => isUpperName (name b) s) with
    | none => exact absurd named (List.find?_eq_none.mp found a listed)
    | some b =>
      have other := named_of_found found
      rw [isUpperName, beq_iff_eq] at named other
      have same : name b = name a := String.toList_injective (other.symm.trans named)
      rw [apart b (List.mem_of_find?_eq_some found) a listed same]

theorem SecurityProtocol.ofName?_eq_some_iff {given : String} {p : SecurityProtocol} :
    ofName? given = some p ↔ Text.isUpperName p.name given.toList = true :=
  Text.find?_isUpperName (by decide) (by cases p <;> decide)

theorem SaslMechanism.ofName?_eq_some_iff {given : String} {m : SaslMechanism} :
    ofName? given = some m ↔ Text.isUpperName m.name given.toList = true :=
  Text.find?_isUpperName (by decide) (by cases m <;> decide)

theorem bind_eq_ok_iff {ε α β : Type} {x : Except ε α} {f : α → Except ε β} {b : β} :
    (x >>= f) = .ok b ↔ ∃ a, x = .ok a ∧ f a = .ok b := by
  cases x <;> simp [bind, Except.bind]

namespace SecuritySettings

variable {environment : Environment} {security : SecuritySettings} {e : SettingsError}
  {p : SecurityProtocol} {given : String} {m : SaslMechanism} {c : Credentials}

/-- The rules for security, whatever the environment is. -/
structure Proper (security : SecuritySettings) : Prop where
  protocol : ∃ p, security.readProtocol = .ok p
  mechanism : ∀ given, security.mechanism = some given →
    (∃ m, readMechanism given = .ok m) ∧ ∃ user, security.username = some user ∧ user ≠ ""

/-- What a client is to sign in with. The password of the environment is used where the settings have
none. -/
structure SignsIn (environment : Environment) (security : SecuritySettings) (c : Credentials) :
    Prop where
  mechanism : ∃ given, security.mechanism = some given ∧
    Text.isUpperName c.mechanism.name given.toList = true
  username : security.username = some c.username
  password : security.password = some c.password ∨
    security.password = none ∧ environment.text? "KAFKA_SASL_PASSWORD" = some c.password

theorem validate_eq_ok_iff : security.validate = .ok () ↔ security.Proper := by
  unfold validate
  rw [bind_eq_ok_iff]
  constructor
  · rintro ⟨p, protocol, rest⟩
    refine ⟨⟨p, protocol⟩, ?_⟩
    intro given chosen
    rw [chosen] at rest
    obtain ⟨m, mechanism, user⟩ := bind_eq_ok_iff.mp rest
    refine ⟨⟨m, mechanism⟩, ?_⟩
    cases username : security.username with
    | none =>
      rw [username] at user
      cases user
    | some name =>
      refine ⟨name, rfl, ?_⟩
      rintro rfl
      rw [username] at user
      cases user
  · rintro ⟨⟨p, protocol⟩, rest⟩
    refine ⟨p, protocol, ?_⟩
    cases chosen : security.mechanism with
    | none => rfl
    | some given =>
      obtain ⟨⟨m, mechanism⟩, user, username, nonempty⟩ := rest given chosen
      refine bind_eq_ok_iff.mpr ⟨m, mechanism, ?_⟩
      rw [username]
      exact if_neg nonempty

end SecuritySettings

namespace BrokerSettings

/-- The protocol that is named; without security it is the plain one. -/
def Speaks (s : BrokerSettings) (p : SecurityProtocol) : Prop :=
  match s.security with
  | none => p = .plaintext
  | some security => Text.isUpperName p.name security.protocol.toList = true

def SignsIn (environment : Environment) (s : BrokerSettings) (c : Credentials) : Prop :=
  ∃ security, s.security = some security ∧ security.SignsIn environment c

/-- Where the files of the certificates are, each with the key of its property. -/
def locations (s : BrokerSettings) : List (String × Option String) :=
  [("ssl.ca.location", s.security.bind (·.caLocation)),
    ("ssl.certificate.location", s.security.bind (·.certificateLocation)),
    ("ssl.key.location", s.security.bind (·.keyLocation))]

/-- The properties that settings ask for. -/
inductive Asks (environment : Environment) (s : BrokerSettings) : String → String → Prop where
  | brokers : Asks environment s "bootstrap.servers" s.brokers
  | clientId : Asks environment s "client.id" s.clientId
  | group : Asks environment s "group.id" (s.clientId ++ "-reader")
  | commits : Asks environment s "enable.auto.commit" "false"
  | stores : Asks environment s "enable.auto.offset.store" "false"
  | ends : Asks environment s "enable.partition.eof" "false"
  | protocol {p : SecurityProtocol} (spoken : s.Speaks p) :
      Asks environment s "security.protocol" p.name
  | mechanism {c : Credentials} (signs : s.SignsIn environment c) :
      Asks environment s "sasl.mechanism" c.mechanism.name
  | username {c : Credentials} (signs : s.SignsIn environment c) :
      Asks environment s "sasl.username" c.username
  | password {c : Credentials} (signs : s.SignsIn environment c) :
      Asks environment s "sasl.password" c.password
  | located {name path : String} (listed : (name, some path) ∈ s.locations) :
      Asks environment s name path

variable {environment : Environment} {s : BrokerSettings} {security : SecuritySettings}
  {c : Credentials} {p q : SecurityProtocol} {name : String} {o : Option String}

theorem Speaks.unique (first : s.Speaks p) (second : s.Speaks q) : p = q := by
  unfold Speaks at first second
  cases secured : s.security with
  | none =>
    rw [secured] at first second
    exact first.trans second.symm
  | some security =>
    rw [secured] at first second
    have found := SecurityProtocol.ofName?_eq_some_iff.mpr first
    rw [SecurityProtocol.ofName?_eq_some_iff.mpr second] at found
    exact (Option.some.inj found).symm

end BrokerSettings

namespace Connection

variable {environment : Environment} {s : BrokerSettings} {c : Connection} {key value : String}

/-- A connection that does as settings say. -/
structure Follows (environment : Environment) (s : BrokerSettings) (c : Connection) : Prop where
  brokers : c.brokers = s.brokers
  clientId : c.clientId = s.clientId
  protocol : s.Speaks c.protocol
  credentials : ∀ found, c.credentials = some found ↔ s.SignsIn environment found
  mechanism : c.credentials.isSome = (s.security.bind (·.mechanism)).isSome
  ca : c.certificates.bind (·.ca) = s.security.bind (·.caLocation)
  certificate : c.certificates.bind (·.certificate) = s.security.bind (·.certificateLocation)
  key : c.certificates.bind (·.key) = s.security.bind (·.keyLocation)
  time : c.metadataTimeout = s.metadataSeconds * 1000

/-- Every key that a connection may have a property for. -/
def keys : List String :=
  ["bootstrap.servers", "client.id", "group.id", "enable.auto.commit", "enable.auto.offset.store",
    "enable.partition.eof", "security.protocol", "sasl.mechanism", "sasl.username", "sasl.password",
    "ssl.ca.location", "ssl.certificate.location", "ssl.key.location"]

end Connection

namespace Settings

variable {s : Settings}

end Settings

end TopicReader
