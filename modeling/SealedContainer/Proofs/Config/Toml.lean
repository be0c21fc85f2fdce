import SealedContainer.Config.Toml
import SealedContainer.Proofs.Outcome
import SealedContainer.Proofs.Toml.Document

/-!
Configurations are read back from the documents that they are printed as. Main statement:
`printed_read_back`. A field that is not printed, an address for metrics that is not there, has its
standard value when the document is read.
-/

namespace SealedContainer

open Toml

namespace Toml

section Field

variable {α : Type} {key name : String} {v : Toml} {es : Entries} {standard : α}
  {read : Toml → Option α}

theorem field?_nil : field? [] name standard read = some standard := rfl

theorem field?_self : field? ((name, v) :: es) name standard read = read v := by
  rw [field?, List.lookup_cons, beq_self_eq_true]

theorem field?_other (other : name ≠ key) :
    field? ((key, v) :: es) name standard read = field? es name standard read := by
  rw [field?, field?, List.lookup_cons, beq_eq_false_iff_ne.mpr other]

end Field

theorem readsLine_simple (name : String) (bare : IsBareKey name.toList) :
    ReadsLine ('[' :: (name.toList ++ [']', '\n'])) (some (.header false ⟨[], name⟩)) := by
  have alone : ∀ key ∈ [name.toList], IsBareKey key := by simpa using bare
  exact readsLine_header alone (by simp) (by decide)

end Toml

namespace ServerConfig

def written (c : ServerConfig) : Written where
  header := "server"
  path := ⟨[], "server"⟩
  entries :=
    [("listen", .text c.listen), ("mode", .text c.mode.name)] ++
    (c.metricsAddress.map fun address => ("metrics_addr", Plain.text address)).toList ++
    [("log_level", .text c.logLevel), ("log_format", .text c.logFormat),
      ("trust_forwarded_identity", .flag c.trustIdentity),
      ("forwarded_identity_header", .text c.identityHeader)]

theorem text_written (c : ServerConfig) : c.written.text = printTable "server" c.entries := by
  rw [Written.text, entries, written]
  cases c.metricsAddress <;> rfl

theorem keys_written (c : ServerConfig) : (c.written.entries.map Prod.fst).Sublist fieldNames := by
  rw [written]
  cases c.metricsAddress with
  | some address => exact List.Sublist.refl fieldNames
  | none => exact .cons_cons _ (.cons_cons _ (.cons _ (.refl _)))

theorem written_reads (c : ServerConfig) : c.written.Reads := by
  have bare : ∀ key ∈ fieldNames, IsBareKey key.toList := by decide
  exact ⟨readsLine_simple "server" (by decide),
    fun key member => bare key (c.keys_written.subset member)⟩

theorem nodup_written (c : ServerConfig) : (c.written.found.map Prod.fst).Nodup := by
  have distinct : fieldNames.Nodup := by decide
  rw [Written.keys_found]
  exact distinct.sublist c.keys_written

/-- What is read of a configuration that is written: without an address for metrics, the standard
one. -/
def settled (c : ServerConfig) : ServerConfig :=
  { c with metricsAddress := c.metricsAddress.or standard.metricsAddress }

theorem ofToml?_written (c : ServerConfig) :
    ofToml? (table .header c.written.found) = some c.settled := by
  have mode : choice? ServerMode.all ServerMode.name (string c.mode.name) = some c.mode := by
    cases c.mode <;> rfl
  rw [settled, Written.found, written]
  cases c.metricsAddress <;>
    simp (disch := decide) [ofToml?, fields?, field?_self, field?_other, field?_nil, Plain.value,
      text?, flag?, mode]

end ServerConfig

namespace CleanupConfig

def written (c : CleanupConfig) : Written where
  header := "key_capsule.cleanup"
  path := ⟨["key_capsule"], "cleanup"⟩
  entries := [("enabled", .flag c.enabled), ("schedule", .text c.schedule)]

theorem written_reads (c : CleanupConfig) : c.written.Reads := by
  have bare : ∀ key ∈ ["key_capsule".toList, "cleanup".toList], IsBareKey key := by decide
  have split : ["key_capsule".toList, "cleanup".toList].map String.ofList =
      ["key_capsule"] ++ ["cleanup"] := by decide
  have header := readsLine_header bare split (by decide)
  have text : '[' :: ("key_capsule".toList ++ (["cleanup".toList].flatMap ('.' :: ·) ++
      [']', '\n'])) = '[' :: ("key_capsule.cleanup".toList ++ [']', '\n']) := by decide
  rw [text] at header
  exact ⟨header, (by decide : ∀ key ∈ fieldNames, IsBareKey key.toList)⟩

theorem nodup_written (c : CleanupConfig) : (c.written.found.map Prod.fst).Nodup :=
  (by decide : fieldNames.Nodup)

theorem ofToml?_written (c : CleanupConfig) :
    ofToml? (table .header c.written.found) = some c := by
  simp (disch := decide) [ofToml?, Written.found, written, fields?, field?_self, field?_other,
    Plain.value, text?, flag?]

end CleanupConfig

namespace CapsuleConfig

def written (c : CapsuleConfig) : Written where
  header := "key_capsule"
  path := ⟨[], "key_capsule"⟩
  entries := [("default_expiration_duration", .text c.defaultDuration),
    ("max_expiration_duration", .text c.maxDuration)]

theorem written_reads (c : CapsuleConfig) : c.written.Reads where
  header := readsLine_simple "key_capsule" (by decide)
  keys := (by decide : ∀ key ∈ fieldNames.dropLast, IsBareKey key.toList)

theorem nodup_written (c : CapsuleConfig) : (c.written.found.map Prod.fst).Nodup :=
  (by decide : fieldNames.dropLast.Nodup)

/-- The entries of the table, with the table that a later header adds to them. -/
def found (c : CapsuleConfig) : Entries :=
  c.written.found ++ [("cleanup", table .header c.cleanup.written.found)]

theorem ofToml?_found (c : CapsuleConfig) : ofToml? (table .header c.found) = some c := by
  have cleanup := c.cleanup.ofToml?_written
  have entries : c.found = [("default_expiration_duration", string c.defaultDuration),
      ("max_expiration_duration", string c.maxDuration),
      ("cleanup", table .header c.cleanup.written.found)] := rfl
  generalize c.cleanup.written.found = inner at cleanup entries
  simp (disch := decide) [ofToml?, entries, fields?, field?_self, field?_other, text?, cleanup]

end CapsuleConfig

namespace StorageConfig

def written (c : StorageConfig) : Written where
  header := "storage"
  path := ⟨[], "storage"⟩
  entries := [("backend", .text c.backend.name), ("path", .text c.path)]

theorem written_reads (c : StorageConfig) : c.written.Reads where
  header := readsLine_simple "storage" (by decide)
  keys := (by decide : ∀ key ∈ fieldNames, IsBareKey key.toList)

theorem nodup_written (c : StorageConfig) : (c.written.found.map Prod.fst).Nodup :=
  (by decide : fieldNames.Nodup)

theorem ofToml?_written (c : StorageConfig) :
    ofToml? (table .header c.written.found) = some c := by
  have backend : choice? StorageBackend.all StorageBackend.name (string c.backend.name) =
      some c.backend := by
    cases c.backend <;> rfl
  simp (disch := decide) [ofToml?, Written.found, written, fields?, field?_self, field?_other,
    Plain.value, text?, backend]

end StorageConfig

namespace Config

def written (c : Config) : List Written :=
  [c.server.written, c.capsules.written, c.capsules.cleanup.written, c.storage.written]

theorem print_eq (c : Config) : c.print = "\n".intercalate (c.written.map Written.text) := by
  rw [print, written, List.map_cons, ServerConfig.text_written]
  rfl

theorem written_reads (c : Config) : ∀ t ∈ c.written, t.Reads := by
  simp only [written, List.forall_mem_cons]
  exact ⟨c.server.written_reads, c.capsules.written_reads, c.capsules.cleanup.written_reads,
    c.storage.written_reads, nofun⟩

def found (c : Config) : Entries :=
  [("server", table .header c.server.written.found),
    ("key_capsule", table .header c.capsules.found),
    ("storage", table .header c.storage.written.found)]

theorem parse_print (c : Config) : Toml.parse c.print = some c.found := by
  let server := ("server", table .header c.server.written.found)
  let bare := ("key_capsule", table .header c.capsules.written.found)
  let capsules := ("key_capsule", table .header c.capsules.found)
  have first : Section.add [] c.server.written.toSection = some [server] :=
    Written.add_of_new rfl (by simp) c.server.nodup_written
  have second : Section.add [server] c.capsules.written.toSection = some [server, bare] :=
    Written.add_of_new rfl (by simp [server]) c.capsules.nodup_written
  have third : Section.add [server, bare] c.capsules.cleanup.written.toSection =
      some [server, capsules] :=
    Written.add_within rfl rfl (by simp [CapsuleConfig.written, Written.found])
      c.capsules.cleanup.nodup_written
  have last : Section.add [server, capsules] c.storage.written.toSection = some c.found :=
    Written.add_of_new rfl (by simp [server, capsules]) c.storage.nodup_written
  rw [print_eq, Written.parse_tables c.written_reads, written]
  simp only [List.map_cons, List.map_nil, List.foldlM_cons, List.foldlM_nil, first, second, third,
    last, Option.bind_eq_bind, Option.bind_some]
  rfl

def settled (c : Config) : Config := { c with server := c.server.settled }

theorem ofEntries?_found (c : Config) : ofEntries? c.found = some c.settled := by
  simp (disch := decide) [ofEntries?, found, field?_self, field?_other, settled,
    c.server.ofToml?_written, c.capsules.ofToml?_found, c.storage.ofToml?_written]

theorem settled_eq_iff (c : Config) : c.settled = c ↔ c.server.metricsAddress ≠ none := by
  rw [settled, ServerConfig.settled]
  cases c with
  | mk server capsules storage =>
      cases server with
      | mk listen mode metrics level format trust header =>
          cases metrics <;> simp [ServerConfig.standard]

/--
A configuration that is written and read again is valid if it was. It is the same if and only if it
has an address for metrics: nothing is written for one that has none, and it gets the standard one.
-/
theorem printed_read_back (c : Config) :
    parse c.print = (do c.validate; return c.settled) ∧
      (c.settled = c ↔ c.server.metricsAddress ≠ none) := by
  refine ⟨?_, c.settled_eq_iff⟩
  have same : c.settled.validate = c.validate := rfl
  rw [parse, parse_print, Option.bind_some, ofEntries?_found]
  simp only [same]

def withoutMetrics : Config :=
  { standard with server := { ServerConfig.standard with metricsAddress := none } }

/-- A server whose metrics are off reads its own configuration as one with metrics on. -/
theorem withoutMetrics_not_read_back :
    withoutMetrics.validate = .ok () ∧ parse withoutMetrics.print = .ok standard ∧
      standard ≠ withoutMetrics := by
  have valid : withoutMetrics.validate = .ok () := by decide +kernel
  refine ⟨valid, ?_, by decide⟩
  rw [parse, parse_print, Option.bind_some, ofEntries?_found]
  rfl

end Config

end SealedContainer
