import SearchIndex.Index.Script
import SearchIndex.Proofs.Json.Quotes
import SearchIndex.Proofs.Shell
import SearchIndex.Proofs.Text.Lowercase

/-!
# The words of a `curl` command

A `curl` command writes the address and the document between single quotes, as they are. It is split
into the words that are meant iff no text that goes into it has a single quote:
`curlScript_words_iff`.
-/

namespace SearchIndex.Index.Document

/-- The address that a command is sent to. -/
def address (c : Connection) (indexName : String) : String :=
  c.hostText ++ ":" ++ c.portText ++ "/" ++ Text.lowercase indexName ++ "?pretty"

/-- The body that a command sends. -/
def body (d : Document) : String := "\n" ++ d.toJson.pretty ++ "\n"

/-- The words that are meant by a command. -/
def curlWords (d : Document) (c : Connection) (indexName : String) : List String :=
  ["curl", "-XPUT", address c indexName, "-H", "Content-Type: application/json", "-d", d.body]

/-- A command as its words with blanks and quotes. -/
theorem curlScript_toList (d : Document) (c : Connection) (indexName : String) :
    (d.curlScript c indexName).toList =
      "curl".toList ++ ' ' :: ("-XPUT".toList ++ ' ' ::
        ('\'' :: ((address c indexName).toList ++ '\'' :: ' ' :: ("-H".toList ++ ' ' ::
          ('\'' :: ("Content-Type: application/json".toList ++ '\'' :: ' ' ::
            ("-d".toList ++ ' ' :: ('\'' :: (d.body.toList ++ ['\'']))))))))) := by
  have hopen : "curl -XPUT '".toList = "curl".toList ++ ' ' :: ("-XPUT".toList ++ [' ', '\'']) := by
    simp
  have hmiddle : "?pretty' -H 'Content-Type: application/json' -d '\n".toList =
      "?pretty".toList ++ '\'' :: ' ' :: ("-H".toList ++ ' ' :: '\'' ::
        ("Content-Type: application/json".toList ++ '\'' :: ' ' ::
          ("-d".toList ++ ' ' :: '\'' :: "\n".toList))) := by
    simp
  have hclose : "\n'".toList = "\n".toList ++ ['\''] := by
    simp
  unfold curlScript address body
  simp only [String.toList_append]
  rw [hopen, hmiddle, hclose]
  simp only [List.append_assoc, List.cons_append, List.nil_append]

/-- Without single quotes in its texts, a command has the words that are meant. -/
theorem scan_curlScript {d : Document} {c : Connection} {indexName : String}
    (haddress : '\'' ∉ (address c indexName).toList) (hbody : '\'' ∉ d.body.toList) :
    Shell.scan .gap (d.curlScript c indexName).toList =
      some ((d.curlWords c indexName).map String.toList) := by
  rw [curlScript_toList]
  refine Shell.scan_plain (by simp) (by decide) ?_
  refine Shell.scan_plain (by simp) (by decide) ?_
  refine Shell.scan_quoted haddress ?_
  refine Shell.scan_plain (by simp) (by decide) ?_
  refine Shell.scan_quoted (by decide) ?_
  refine Shell.scan_plain (by simp) (by decide) ?_
  exact Shell.scan_quoted_last hbody

/-- The words that are meant account for every character of a command. -/
theorem surplus_curlScript (d : Document) (c : Connection) (indexName : String) :
    Shell.surplus (d.curlScript c indexName).toList ((d.curlWords c indexName).map String.toList) =
      0 := by
  rw [curlScript_toList]
  simp [Shell.surplus, curlWords]
  omega

/-- A quote in the address comes from the host, the port or the name of the index. -/
theorem quote_mem_address (c : Connection) (indexName : String) :
    '\'' ∈ (address c indexName).toList ↔
      '\'' ∈ c.hostText.toList ∨ '\'' ∈ c.portText.toList ∨ '\'' ∈ indexName.toList := by
  simp [address, Text.quote_mem_lowercase]

/-- A quote in the body comes from a text or a name of the document. -/
theorem quote_mem_body (d : Document) : '\'' ∈ d.body.toList ↔ d.toJson.Mentions '\'' := by
  simp [body, Json.quote_mem_pretty]

/-- Only a command without single quotes in its texts has the words that are meant. -/
theorem quote_not_mem_of_words? {d : Document} {c : Connection} {indexName : String}
    (h : Shell.words? (d.curlScript c indexName) = some (d.curlWords c indexName)) :
    '\'' ∉ (address c indexName).toList ∧ '\'' ∉ d.body.toList := by
  obtain ⟨ws, hws, hwords⟩ := Option.map_eq_some_iff.1 h
  have heq : ws = (d.curlWords c indexName).map String.toList := by
    rw [← hwords, List.map_map]
    simp [Function.comp_def]
  have hnone := Shell.not_mem_of_surplus_eq_zero (heq ▸ hws) (surplus_curlScript d c indexName)
  simp only [curlWords, List.map_cons, List.flatten_cons, List.mem_append, not_or] at hnone
  obtain ⟨-, -, haddress, -, -, -, hbody, -⟩ := hnone
  exact ⟨haddress, hbody⟩

/-- A shell splits a command into the words that are meant iff no text in it has a single quote: not
the host, the port or the name of the index, and no string or name in the document. -/
theorem curlScript_words_iff (d : Document) (c : Connection) (indexName : String) :
    Shell.words? (d.curlScript c indexName) = some (d.curlWords c indexName) ↔
      '\'' ∉ c.hostText.toList ∧ '\'' ∉ c.portText.toList ∧ '\'' ∉ indexName.toList ∧
        ¬ d.toJson.Mentions '\'' := by
  constructor
  · intro h
    obtain ⟨haddress, hbody⟩ := quote_not_mem_of_words? h
    simp only [quote_mem_address, not_or] at haddress
    obtain ⟨hhost, hport, hname⟩ := haddress
    exact ⟨hhost, hport, hname, fun hmention => hbody ((quote_mem_body d).2 hmention)⟩
  · rintro ⟨hhost, hport, hname, hdocument⟩
    have haddress : '\'' ∉ (address c indexName).toList := by
      simp only [quote_mem_address, not_or]
      exact ⟨hhost, hport, hname⟩
    have hbody : '\'' ∉ d.body.toList := fun h => hdocument ((quote_mem_body d).1 h)
    rw [Shell.words?, scan_curlScript haddress hbody, Option.map_some, List.map_map]
    simp [Function.comp_def]

/-- A document with an analyzer that turns curly quotes into straight ones. -/
def straightQuotes : Document where
  settings := some [("analysis", .obj [("char_filter", .obj [("straight", .obj
    [("type", .str "mapping"), ("mappings", .arr [.str "’=>'"])])])])]
  aliases := none
  mappings := .typeless ⟨none, []⟩

/-- The shell does not read the command for `straightQuotes` as the words that are meant. -/
theorem straightQuotes_words_ne :
    Shell.words? (straightQuotes.curlScript .unset "shop") ≠
      some (straightQuotes.curlWords .unset "shop") := by
  intro h
  obtain ⟨-, hbody⟩ := quote_not_mem_of_words? h
  refine hbody ((quote_mem_body straightQuotes).2 ?_)
  simp [straightQuotes, toJson, Json.present, Json.Mentions, Json.MembersMention,
    Json.ItemsMention]

end SearchIndex.Index.Document
