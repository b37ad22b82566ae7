import Aerial.Proofs.Wire.Requests
import Aerial.Wire.Notice

/-! # No message begins another

Requests, notices, statuses and descriptions are closed by brackets of their own. The only value in
them that has no closing byte is a number, and a member that is a number is followed by the comma or
the bracket that ends it. So an accepted message cannot be gone on with, and cut off before its last
bracket it is not accepted. -/

namespace Aerial.Wire
open Aerial.Json

/-! ## Members -/

theorem steady_textMember (name : String) : Steady (textMember name).read :=
  Read.steady_map _ closed_readText.steady

theorem steady_degreesMember (name : String) : Steady (degreesMember name).read :=
  Read.steady_map _ steady_readDegrees

theorem steady_flagMember (name : String) : Steady (flagMember name).read :=
  Read.steady_map _ closed_readFlag.steady

/-! ## Kinds -/

theorem closed_readKindName : Closed readKindName := by
  intro s k rest h more
  obtain ⟨⟨name, t⟩, hname, h⟩ := bind_eq_ok_iff.mp h
  refine bind_eq_ok_iff.mpr ⟨_, Text.closed_read hname more, ?_⟩
  dsimp only at h ⊢
  split at h
  · cases h
    rfl
  · cases h

theorem closed_readKindObject : Closed readKindObject := by
  intro s k rest h more
  refine afterSpace_append (fun _ => rfl) h fun c t h => ?_
  split at h
  · rename_i hquote
    obtain ⟨⟨k, t⟩, hname, h⟩ := bind_eq_ok_iff.mp h
    obtain ⟨u, hcolon, h⟩ := bind_eq_ok_iff.mp h
    obtain ⟨v, hnothing, h⟩ := bind_eq_ok_iff.mp h
    obtain ⟨_, hend, h⟩ := bind_eq_ok_iff.mp h
    cases h
    rw [if_pos hquote]
    exact bind_eq_ok_iff.mpr ⟨_, closed_readKindName hname more,
      bind_eq_ok_iff.mpr ⟨_, readColon_append hcolon more,
      bind_eq_ok_iff.mpr ⟨_, readNothing_append hnothing more,
      bind_eq_ok_iff.mpr ⟨_, (expect_append (fun _ => rfl) hend more).2, rfl⟩⟩⟩⟩
  · cases h

theorem closed_readKind : Closed readKind := by
  intro s k rest h more
  refine afterSpace_append (fun _ => rfl) h fun c t h => ?_
  split at h
  · rename_i hquote
    rw [if_pos hquote]
    exact closed_readKindName h more
  rename_i hquote
  rw [if_neg hquote]
  split at h
  · rename_i hbrace
    rw [if_pos hbrace]
    exact closed_readKindObject h more
  · cases h

/-! ## Messages -/

theorem closed_readStatus : Closed statusRecord.read := by
  refine Record.closed_read ?_
  simp only [statusRecord, List.forall_mem_cons, steady_textMember, steady_degreesMember,
    steady_flagMember, true_and]
  exact nofun

theorem closed_readInfo : Closed infoRecord.read := by
  refine Record.closed_read ?_
  simp only [infoRecord, List.forall_mem_cons, steady_textMember, steady_degreesMember,
    steady_flagMember, true_and]
  exact nofun

theorem closed_readNotice : Closed noticeRecord.read := by
  refine Record.closed_read ?_
  simp only [noticeRecord, List.forall_mem_cons]
  exact ⟨Read.steady_map _ closed_readKind.steady, Read.steady_map _ closed_readStatus.steady,
    nofun⟩

/-- Whatever kind of message is read: nothing but space may be put after an accepted one, which then
is the same message, and no beginning of it that lacks its closing bracket is accepted. -/
theorem messages_prefixFree : PrefixFree decodeRequest ∧ PrefixFree decodeNotice ∧
    PrefixFree decodeStatus ∧ PrefixFree decodeInfo ∧ PrefixFree decodeInfos :=
  ⟨closed_readRequest.prefixFree, closed_readNotice.prefixFree, closed_readStatus.prefixFree,
    closed_readInfo.prefixFree, (closed_readList closed_readInfo.steady).prefixFree⟩

/-- An order to stop, with a line feed after it and without its closing brace. -/
theorem messages_prefixFree_stop :
    decodeRequest (writeRequest .stop ++ [10]) = .ok .stop ∧
      ∃ e, decodeRequest (writeRequest .stop).dropLast = .error e := by
  have hread := decodeRequest_writeRequest .stop
  refine ⟨(messages_prefixFree.1.extended hread [10] _).mpr ⟨?_, rfl⟩, ?_⟩
  · exact List.forall_mem_singleton.mpr rfl
  · have hcut : (writeRequest .stop).dropLast ++ [125] = writeRequest .stop := by rfl
    rw [← hcut] at hread
    exact messages_prefixFree.1.truncated hread fun hgap =>
      Bool.false_ne_true (hgap 125 List.mem_cons_self)

end Aerial.Wire
