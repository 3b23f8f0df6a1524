import LanguageService.Proofs.Session.Documents

/-! A client edits its own copy of a document and sends each edit. Where an edit is of a slice, the
places of its ends are those that the copy has at that moment: the line feeds before them, and the
characters behind the last of these. The buffer follows the copy. -/
namespace LanguageService.Session
open Text (Point)
open Change (shown)

def Holds (link : Link) (uri : Text) (copy : List Point) : Prop :=
  ∃ b, link.host.buffers.get? (.text uri) = some b ∧ b.content = .text (.ofPoints copy)

/- Whether or not the findings can be published, the buffer holds the new text. -/
theorem analyseHolds {link : Link} {uri : Text} {b : Buffer} {copy : List Point}
    (content : b.content = .text (.ofPoints copy)) :
    ∃ held, ((analyse (.text uri) b).exec (stored link (.text uri) b)).2.host.buffers.get? (.text uri) = some held ∧
      held.content = .text (.ofPoints copy) := by
  refine ⟨b, ?_, content⟩
  rw [analyseBuffers, stored, Table.getInsert, if_pos rfl]

end LanguageService.Session
