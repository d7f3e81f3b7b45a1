import NodeSettings.Proofs.Yaml.Build.Value
import NodeSettings.Yaml.Read

/-!
This module contains the reading of documents that are written: the document of a record is read
back as the value that the record denotes.
-/

namespace NodeSettings
namespace Yaml

variable {d : Nat} {entries : List (Tree × Tree)} {v : Value}

theorem readChars_document (h : Denotes d (.mapping entries) v) (hd : d < Builder.rounds) :
    readChars (Layout.document (.mapping entries)) = .ok v := by
  have hrounds : d < 4 := hd
  have hlimit : Layout.step * d + 1 ≤ Style.width := by
    show 2 * d + 1 ≤ 80
    omega
  rcases Compose.document_treeTokens h with ⟨n, g, hdocument, hsound, hshows⟩
  unfold readChars
  rw [tokens_document h hlimit, hdocument, Except.ok_bind]
  exact Graph.value_eq hsound hshows hd

theorem isWritten_document (h : Denotes d (.mapping entries) v) :
    (Layout.document (.mapping entries)).all isWritten = true := by
  cases h with
  | record d entries hne hkeys hkey hentries =>
    rw [document_record hne hkey, List.all_append, isWritten_joinLines]
    . rfl
    . intro line hline
      rcases List.mem_map.mp hline with ⟨e, he, rfl⟩
      exact isWritten_entryLine (hkey e he) (hentries e he).all_isWritten _

theorem read_document (h : Denotes d (.mapping entries) v) (hd : d < Builder.rounds) :
    read (String.ofList (Layout.document (.mapping entries))).toUTF8 = .ok v := by
  unfold read
  rw [characters?_toUTF8 (isWritten_document h)]
  exact readChars_document h hd

end Yaml
end NodeSettings
