import Inflection.Config.Load
import Inflection.Proofs.Json.RoundTrip
import Inflection.SortedMap.Lemmas

/-!
# Raw trees as JSON texts

A raw tree is written as an object of objects and read back as the same tree, whatever its names and
values hold.  So a configuration may be kept as its tree or as the text of the tree: loading either
gives the same lexicon, or is refused in the same words.

## Main statements

* `readTree_write`: a tree is read back in every layout that sets its parts apart by spaces.
* `load_compact`: so it loads like its compact text.
-/

namespace Inflection

namespace Json

variable {l : Layout}

theorem Restores.rawKind (hl : l.Spaced) (depth : Nat) (kind : RawKind) :
    Restores (readObject readStringOrNull) (write l depth kind.toJson) kind := by
  have hfields : FieldsRestored readStringOrNull l (depth + 1)
      (kind.toList.map fun e => (e.1, .ofString? e.2)) kind.toList := by
    rw [FieldsRestored, List.forall₂_map_left_iff, List.forall₂_same]
    exact fun e _ => ⟨rfl, .ofString? l (depth + 1) e.2⟩
  have hobject := Restores.object hl hfields
  rwa [SortedMap.ofList_toList] at hobject

theorem Restores.rawTree (hl : l.Spaced) (depth : Nat) (tree : RawTree) :
    Restores (readObject (readObject readStringOrNull)) (write l depth tree.toJson) tree := by
  have hfields : FieldsRestored (readObject readStringOrNull) l (depth + 1)
      (tree.toList.map fun e => (e.1, e.2.toJson)) tree.toList := by
    rw [FieldsRestored, List.forall₂_map_left_iff, List.forall₂_same]
    exact fun e _ => ⟨rfl, .rawKind hl (depth + 1) e.2⟩
  have hobject := Restores.object hl hfields
  rwa [SortedMap.ofList_toList] at hobject

/-- A tree is read back from what is written of it. -/
theorem readTree_write (hl : l.Spaced) (tree : RawTree) :
    readTree (write l 0 tree.toJson) = .ok tree := by
  have hread := Restores.rawTree hl 0 tree [] [] fun _ h => absurd h List.not_mem_nil
  rw [List.nil_append, List.append_nil] at hread
  rw [readTree, hread]
  rfl

end Json

/-- A tree is read back from its compact text.  So the text loads as the tree does, to the same
lexicon or with the words of the same error. -/
theorem load_compact (tree : RawTree) (locale : String) :
    Json.readTree tree.toJson.compact.toList = .ok tree ∧
      (Config.load tree.toJson.compact locale).mapError Config.Diagnostic.message =
        (Lexicon.load locale tree).mapError LoadError.message := by
  have hread : Json.readTree tree.toJson.compact.toList = .ok tree := by
    rw [Json.compact, String.toList_ofList]
    exact Json.readTree_write Json.Layout.spaced_compact tree
  refine ⟨hread, ?_⟩
  simp only [Config.load, hread]
  cases Lexicon.load locale tree with
  | ok d => rfl
  | error e => rfl

end Inflection
