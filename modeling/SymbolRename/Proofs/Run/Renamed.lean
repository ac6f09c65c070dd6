import SymbolRename.Proofs.Rename.Namespacing
import SymbolRename.Proofs.Run.Entry
import SymbolRename.Proofs.Text.Utf8

/-!
# Files that a run has written

A file that a run has written holds a text with nothing left to rename, whatever policy it is read
with.  So it never holds the bytes of a file that is still to be changed, and a run that comes to it
leaves it alone.
-/

namespace SymbolRename

theorem Decoded.renamed_ofList_renamed (decoded : Decoded) :
    Decoded.renamed ⟨String.ofList decoded.renamed, false⟩ =
      (String.ofList decoded.renamed).toList := by
  rw [Decoded.renamed, String.toList_ofList, Decoded.renamed, namespaceText_text_namespaceText]

theorem Decoded.encode_renamed_ne {policy : DecodePolicy} {raw : Bytes} {decoded : Decoded}
    (hdecode : decodeBytes policy raw = .ok decoded)
    (hdiffers : decoded.renamed ≠ decoded.text.toList) (other : Decoded) :
    Utf8.encode other.renamed ≠ raw := by
  rintro rfl
  rw [decodeBytes_encode] at hdecode
  cases hdecode
  exact hdiffers other.renamed_ofList_renamed

namespace Disk

variable {disk : Disk} {settings : RunSettings} {path : String} {location : Location}

theorem Loads.of_renamed {decoded : Decoded}
    (h : disk.lookup (settings.absPath path) =
      .ok (location, .file (Utf8.encode decoded.renamed))) :
    disk.Loads settings path location (Utf8.encode decoded.renamed)
      ⟨String.ofList decoded.renamed, false⟩ :=
  ⟨h, decodeBytes_encode settings.policy decoded.renamed⟩

theorem entryEffect_of_renamed {decoded : Decoded}
    (h : disk.lookup (settings.absPath path) =
      .ok (location, .file (Utf8.encode decoded.renamed))) :
    ∃ outcome, disk.EntryEffect settings path outcome [] ∧ outcome.status = .unchanged :=
  ⟨_, .unchanged (.of_renamed h) decoded.renamed_ofList_renamed, rfl⟩

end Disk
end SymbolRename
