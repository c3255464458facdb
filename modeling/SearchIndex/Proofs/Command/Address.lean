import SearchIndex.Command.Run
import SearchIndex.Proofs.Config
import SearchIndex.Proofs.Json.Spelling

/-!
# Where scripts are addressed

What a script says is settled in several places: the options of a command, the request, the
configuration and, where nothing else is said, the defaults. `addressedTo` puts together which host
and which port a `curl` command is addressed to, and `answers` which script is written at all. Both
commands write that script, for the index document of the request as it was read
(`scripts_addressed`).

A port that is an integer is spelled as it was, since integers have one spelling only. Any other
number is written as the writer spells it (`exponent_port_respelled`).
-/

namespace SearchIndex.Command

open Index Request

/-! ## Which script is written -/

/-- Where a script is addressed: what the connection names comes first, then the configuration, then
the defaults. -/
structure AddressedTo (config : Config) (c : Connection) (host port : String) : Prop where
  /-- The host that the connection names. -/
  host_named : ∀ named, c.host = some named → named ≠ "" → host = named
  /-- The configured host, unless it is empty. -/
  host_configured : (∀ named, c.host = some named → named = "") → config.target.host ≠ "" →
    host = config.target.host
  /-- The host that is always there. -/
  host_default : (∀ named, c.host = some named → named = "") → config.target.host = "" →
    host = "localhost"
  /-- The port that the connection names as a text. -/
  port_text : ∀ named, c.port = some (.str named) → named ≠ "" → port = named
  /-- The port that the connection names as a number, as numbers are written. -/
  port_number : ∀ n, c.port = some (.num n) → n.isZero = false → port = String.ofList n.text
  /-- If the number is an integer, it is spelled as it was. -/
  port_spelled : ∀ z, c.port = some (.num (.integer z)) → z ≠ 0 →
    ∀ spelling : String, spelling.toList.all Json.isNumeric →
      Json.read spelling = .ok (.num (.integer z)) → port = spelling
  /-- The configured port, unless it is zero. -/
  port_configured : (∀ v, c.port = some v → ¬NamesPort v) → config.target.port ≠ 0 →
    port = toString config.target.port
  /-- The port that is always there. -/
  port_default : (∀ v, c.port = some v → ¬NamesPort v) → config.target.port = 0 → port = "9200"

/-- A completed connection is addressed to the host and the port of its texts. -/
theorem addressedTo (config : Config) (c : Connection) :
    AddressedTo config c (config.complete c).hostText (config.complete c).portText := by
  have hport : ∀ n, c.port = some (.num n) → n.isZero = false →
      (config.complete c).portText = String.ofList n.text := by
    intro n hc hne
    rw [Connection.portText, Config.port?_complete, Connection.port?_of_number hc hne]
    rfl
  refine ⟨?_, ?_, ?_, ?_, hport, ?_, ?_, ?_⟩
  · intro named hc hne
    rw [Connection.hostText, Config.host?_complete, Connection.host?_of_named hc hne]
    rfl
  · intro hc hne
    rw [Connection.hostText, Config.host?_complete, Connection.host?_of_unnamed hc, if_neg hne]
    rfl
  · intro hc hempty
    rw [Connection.hostText, Config.host?_complete, Connection.host?_of_unnamed hc, if_pos hempty]
    rfl
  · intro named hc hne
    rw [Connection.portText, Config.port?_complete, Connection.port?_of_text hc hne]
    rfl
  · intro z hc hne spelling hspelling hread
    rw [hport (.integer z) hc (by simpa [Json.Number.isZero] using hne),
      ← Json.integer_spelling (List.all_eq_true.1 hspelling) hread]
  · intro hc hne
    rw [Connection.portText, Config.port?_complete, Connection.port?_of_unnamed hc, if_neg hne]
    rfl
  · intro hc hzero
    rw [Connection.portText, Config.port?_complete, Connection.port?_of_unnamed hc, if_pos hzero]
    rfl

/-- The options, the request or the configuration ask for `curl`. -/
def AsksForCurl (options : ScriptOptions) (update : Bool) (config : Config) : Prop :=
  options.update ∨ update ∨ config.script = .curl

/-- Which script is written for an index document. -/
structure Answers (options : ScriptOptions) (config : Config) (update : Bool) (c : Connection)
    (indexName : String) (d : Document) (script : String) : Prop where
  /-- If anything asks for it, a `curl` command. -/
  curl : AsksForCurl options update config → ∃ host port, AddressedTo config c host port ∧
    script = "curl -XPUT '" ++ host ++ ":" ++ port ++ "/" ++ Text.lowercase indexName ++
      "?pretty' -H 'Content-Type: application/json' -d '\n" ++ d.toJson.pretty ++ "\n'"
  /-- Else a request for the console, in which no connection and no target occurs. -/
  console : ¬AsksForCurl options update config →
    script = "PUT /" ++ Text.lowercase indexName ++ "\n" ++ d.toJson.pretty
  /-- The beginning tells which of the two it is. -/
  begins_iff : (∃ rest, script = "curl " ++ rest) ↔ AsksForCurl options update config

/-- A `curl` script is written iff the options, the request or the configuration ask for one. -/
theorem scriptKind_eq_curl_iff {options : ScriptOptions} {update : Bool} {config : Config} :
    scriptKind options update config = .curl ↔ AsksForCurl options update config := by
  unfold scriptKind AsksForCurl
  cases options.update <;> cases update <;> simp

/-- A `curl` script begins with the name of the program. -/
theorem begins_curlScript (d : Document) (c : Connection) (indexName : String) :
    ∃ rest, d.curlScript c indexName = "curl " ++ rest := by
  have hopening : "curl -XPUT '" = "curl " ++ "-XPUT '" := by decide +kernel
  unfold Document.curlScript
  simp only [hopening, String.append_assoc]
  exact ⟨_, rfl⟩

/-- A script for the console begins with the method, hence not as a command does. -/
theorem not_begins_consoleScript (d : Document) (indexName : String) :
    ¬∃ rest, d.consoleScript indexName = "curl " ++ rest := by
  rintro ⟨rest, h⟩
  have hput : "PUT /".toList = 'P' :: "UT /".toList := by decide +kernel
  have hcurl : "curl ".toList = 'c' :: "url ".toList := by decide +kernel
  have hlists := congrArg (List.head? ∘ String.toList) h
  simp [Document.consoleScript, String.toList_append, hput, hcurl] at hlists

/-- What nobody asks `curl` for is written for the console. -/
theorem scriptKind_eq_console {options : ScriptOptions} {update : Bool} {config : Config}
    (h : ¬AsksForCurl options update config) : scriptKind options update config = .console := by
  cases hkind : scriptKind options update config with
  | curl => exact absurd (scriptKind_eq_curl_iff.1 hkind) h
  | console => rfl

/-- The script of a document is the one that is asked for, addressed to the completed connection. -/
theorem answers (options : ScriptOptions) (config : Config) (update : Bool) (c : Connection)
    (indexName : String) (d : Document) :
    Answers options config update c indexName d
      (d.script (scriptKind options update config) (config.complete c) indexName) where
  curl := by
    intro hasks
    rw [scriptKind_eq_curl_iff.2 hasks]
    exact ⟨_, _, addressedTo config c, rfl⟩
  console := by
    intro hasks
    rw [scriptKind_eq_console hasks]
    rfl
  begins_iff := by
    by_cases hasks : AsksForCurl options update config
    · rw [scriptKind_eq_curl_iff.2 hasks]
      exact iff_of_true (begins_curlScript d (config.complete c) indexName) hasks
    · rw [scriptKind_eq_console hasks]
      exact iff_of_false (not_begins_consoleScript d indexName) hasks

/-! ## The commands -/

section Commands

variable {m : Type → Type} [Monad m] [LawfulMonad m] (files : Files m) (config : Config)
  (file : String) (options : ScriptOptions)

/-- Once the text of an entity request is there, its script is written. -/
theorem runEntity_writes :
    ∃ rest, runEntity files config file options = readSource files file >>= rest ∧
      ∀ text r d, EntityRequest.read text = .ok r → r.document = .ok d → ∃ script,
        rest text = writeText files options.output script ∧
          Answers options config r.update r.connection r.container.indexName d script := by
  refine ⟨_, rfl, fun text r d hr hd => ⟨_, ?_, answers options config _ _ _ d⟩⟩
  have hgenerate : ∀ kind c, { r with connection := c }.generate kind =
      .ok (d.script kind c r.container.indexName) := fun kind c => congrArg (Except.map _) hd
  simp only [hr, orFail, pure_bind, hgenerate, orReport]

/-- Once the text of a request for a shared index is there, its script is written. -/
theorem runContainer_writes :
    ∃ rest, runContainer files config file options = readSource files file >>= rest ∧
      ∀ text r d, ContainerRequest.read text = .ok r → r.document = .ok d → ∃ script,
        rest text = writeText files options.output script ∧
          Answers options config r.update r.connection r.container.indexName d script := by
  refine ⟨_, rfl, fun text r d hr hd => ⟨_, ?_, answers options config _ _ _ d⟩⟩
  have hgenerate : ∀ kind c, (r.withConnection c).generate kind =
      .ok (d.script kind c r.container.indexName) := fun kind c => congrArg (Except.map _) hd
  simp only [hr, orFail, pure_bind, hgenerate, orReport]
  rfl

end Commands

/-- Where the scripts of both commands are addressed, and what they deliver. A command reads a text;
`rest` is what it makes of it. The document is that of the request in the text, whatever the options
and the configuration are, and neither it nor a request for the console depends on connections. -/
theorem scripts_addressed {m : Type → Type} [Monad m] [LawfulMonad m] (files : Files m) :
    (∀ config file options,
      ∃ rest, runEntity files config file options = readSource files file >>= rest ∧
        ∀ text r d, EntityRequest.read text = .ok r → r.document = .ok d → ∃ script,
          rest text = writeText files options.output script ∧
            Answers options config r.update r.connection r.container.indexName d script) ∧
    (∀ config file options,
      ∃ rest, runContainer files config file options = readSource files file >>= rest ∧
        ∀ text r d, ContainerRequest.read text = .ok r → r.document = .ok d → ∃ script,
          rest text = writeText files options.output script ∧
            Answers options config r.update r.connection r.container.indexName d script) ∧
    (∀ (r : EntityRequest) c, { r with connection := c }.document = r.document ∧
      { r with connection := c }.generate .console = r.generate .console) ∧
    (∀ (r : ContainerRequest) cs, { r with connections := cs }.document = r.document ∧
      { r with connections := cs }.generate .console = r.generate .console) ∧
    ∀ config c, Config.Completes config c :=
  ⟨runEntity_writes files, runContainer_writes files, fun _ _ => ⟨rfl, rfl⟩, fun _ _ => ⟨rfl, rfl⟩,
    Config.completes⟩

/-- A request for an entity that names a port, but no host. -/
def portRequest : EntityRequest :=
  ⟨.null, .null, .null, .null, .unnamed, ⟨some "Shop", none, []⟩,
    ⟨some "", some (.num (.integer 9300))⟩, false⟩

/-- A text of this request. -/
def portText : String :=
  "\x7b\"containerData\":\x7b\"name\":\"Shop\"\x7d," ++
    "\"modelData\":\x7b\"host\":\"\",\"port\":9300\x7d\x7d"

/-- A request for a shared index. Its first connection names a port, the second one a host. -/
def portsRequest : ContainerRequest :=
  ⟨[], [], [], .null, .null, [⟨some "Shop", none, []⟩],
    [⟨none, some (.str "7")⟩, ⟨some "second", none⟩], false⟩

/-- A text of this request. -/
def portsText : String :=
  "\x7b\"containerData\":[\x7b\"name\":\"Shop\"\x7d]," ++
    "\"modelData\":[\x7b\"port\":\"7\"\x7d,\x7b\"host\":\"second\"\x7d]\x7d"

/-- A configuration that names a host. -/
def namedHost : Config := ⟨.curl, ⟨"es", 0⟩⟩

/-- Two requests name a port: one as a text, the other as a number. Either port comes before the
configured one. -/
theorem scripts_addressed_ports :
    (EntityRequest.read portText = .ok portRequest ∧ ∃ d, portRequest.document = .ok d ∧
      ∃ rest script, runEntity Session.files namedHost "-" ⟨false, none, false⟩ =
          readSource Session.files "-" >>= rest ∧
        rest portText = writeText Session.files none script ∧
        script = "curl -XPUT '" ++ "es" ++ ":" ++ "9300" ++ "/" ++ Text.lowercase "shop" ++
          "?pretty' -H 'Content-Type: application/json' -d '\n" ++ d.toJson.pretty ++ "\n'") ∧
    ContainerRequest.read portsText = .ok portsRequest ∧ ∃ d, portsRequest.document = .ok d ∧
      ∃ rest script, runContainer Session.files namedHost "-" ⟨true, none, false⟩ =
          readSource Session.files "-" >>= rest ∧
        rest portsText = writeText Session.files none script ∧
        script = "curl -XPUT '" ++ "es" ++ ":" ++ "7" ++ "/" ++ Text.lowercase "shop" ++
          "?pretty' -H 'Content-Type: application/json' -d '\n" ++ d.toJson.pretty ++ "\n'" := by
  have hread : EntityRequest.read portText = .ok portRequest := rfl
  have hread' : ContainerRequest.read portsText = .ok portsRequest := rfl
  have hname : portRequest.container.indexName = "shop" := by decide +kernel
  have hname' : portsRequest.container.indexName = "shop" := by decide +kernel
  have hdocument : portRequest.document = .ok (.ofEntity portRequest.container .unnamed []) := rfl
  have hdocument' : portsRequest.document = .ok (.ofContainer portsRequest.container []) := rfl
  obtain ⟨hentity, hcontainer, -⟩ := scripts_addressed Session.files
  refine ⟨⟨hread, _, hdocument, ?_⟩, hread', _, hdocument', ?_⟩
  · obtain ⟨rest, hrun, hrest⟩ := hentity namedHost "-" ⟨false, none, false⟩
    obtain ⟨script, hwrites, hanswers⟩ := hrest portText _ _ hread hdocument
    obtain ⟨host, port, haddressed, hscript⟩ := hanswers.curl (.inr (.inr rfl))
    have hhost : host = "es" := haddressed.host_configured (by rintro _ ⟨⟩; rfl) (by decide)
    have hport : port = "9300" :=
      haddressed.port_spelled 9300 rfl (by decide) "9300" rfl rfl
    rw [hhost, hport, hname] at hscript
    exact ⟨rest, script, hrun, hwrites, hscript⟩
  · obtain ⟨rest, hrun, hrest⟩ := hcontainer namedHost "-" ⟨true, none, false⟩
    obtain ⟨script, hwrites, hanswers⟩ := hrest portsText _ _ hread' hdocument'
    obtain ⟨host, port, haddressed, hscript⟩ := hanswers.curl (.inl rfl)
    have hhost : host = "es" := haddressed.host_configured (by rintro _ ⟨⟩) (by decide)
    have hport : port = "7" := haddressed.port_text "7" rfl (by decide)
    rw [hhost, hport, hname'] at hscript
    exact ⟨rest, script, hrun, hwrites, hscript⟩

/-- The standard input has a request whose port is a number with an exponent. -/
def exponentPort : Session :=
  ⟨⟨[], []⟩, [], "\x7b\"modelData\":\x7b\"port\":1e3\x7d\x7d"⟩

/-- The script for an entity that is not described, addressed to a port of the local host. -/
def emptyScript (port : String) : String :=
  "curl -XPUT 'localhost:" ++ port ++ "/?pretty' -H 'Content-Type: application/json' -d '\n" ++
    "\x7b\n    \"mappings\": \x7b\n        \"\": \x7b\n            \"properties\": \x7b\x7d\n" ++
    "        \x7d\n    \x7d\n\x7d\n'\n"

/-- A port that is no integer is not always spelled as it was given. -/
theorem exponent_port_respelled :
    ((run Session.files ["entity", "-", "--update"]).run exponentPort).1 =
        .printed (emptyScript "1000.0") ∧
      emptyScript "1000.0" ≠ emptyScript "1e3" := by
  decide +kernel

end SearchIndex.Command
