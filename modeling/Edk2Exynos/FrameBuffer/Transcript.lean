/-
What can be read on the screen.

Messages are lines of text, each written with one call and a line feed
after it. The first stands in the first row, which is not cleared again;
the others go round the rows below it (`messageRow`). So the screen shows
the first message and the last ones that fit, each as it was written and
in its colour (`messages_readable`).

A message is `Plain` when the console shows all of it in one row: glyphs
only, no space first, and not the last column, which would wrap the row.
-/
import Edk2Exynos.FrameBuffer.TextTerminal
import Edk2Exynos.Lib.RingBuffer

namespace Edk2Exynos.FrameBuffer

open Lib

-- ============================================================== messages

/-- A line to log, by one of the two functions. -/
structure Message where
  critical : Bool
  text : List UINT8

/-- The colours of the function that logs it. -/
def Message.color (msg : Message) : FbconColor :=
  if msg.critical then yellowOnBlack else whiteOnBlack

/-- The call that writes a message. -/
def Message.call (msg : Message) : SerialPortCall :=
  if msg.critical then .writeCritical (msg.text ++ [10])
  else .write (msg.text ++ [10])

/-- The console shows all of the text in one row. -/
structure Plain (cols : Nat) (text : List UINT8) : Prop where
  glyphs : ∀ c ∈ text, ¬ c.toNat < 32 ∧ ¬ 127 < c.toNat
  noSpace : text.head? ≠ some 32
  length_lt : text.length < cols

/-- The row of the `k`-th message. -/
def messageRow (rows k : Nat) : Nat :=
  if k = 0 then 0 else 1 + (k - 1) % (rows - 1)

/-- Of `n` messages, the `k`-th can still be read. -/
def Readable (rows n k : Nat) : Prop := k = 0 ∨ n < k + (rows - 1)

-- ================================================================== rows

/-- A message goes to the row below the last one's, or to the second. -/
theorem messageRow_succ {rows : Nat} (hrows : 2 ≤ rows) (n : Nat) :
    messageRow rows (n + 1)
      = if messageRow rows n + 1 < rows then messageRow rows n + 1
        else 1 := by
  have hpos : 0 < rows - 1 := by omega
  have hmod := RingBuffer.succ_mod (Nat.mod_lt (n - 1) hpos)
  rw [Nat.mod_add_mod] at hmod
  unfold messageRow
  rw [if_neg (Nat.succ_ne_zero n), Nat.add_sub_cancel]
  by_cases hzero : n = 0
  · subst hzero
    rw [if_pos rfl, if_pos (by omega), Nat.zero_mod]
  · have hpred : n - 1 + 1 = n := by omega
    rw [hpred] at hmod
    rw [if_neg hzero, hmod]
    split
    · rw [if_pos (by omega)]
      omega
    · rw [if_neg (by omega)]

/-- A message that can be read is not where the next one goes. -/
theorem messageRow_ne {rows n k : Nat} (hk : k < n)
    (h : Readable rows n k) : messageRow rows k ≠ messageRow rows n := by
  unfold messageRow
  rw [if_neg (by omega : n ≠ 0)]
  split
  · omega
  next hne =>
    have hnear : n < k + (rows - 1) := h.resolve_left hne
    intro heq
    have hmod : (n - 1) % (rows - 1) = (k - 1) % (rows - 1) := by omega
    have hzero := Nat.sub_mod_eq_zero_of_mod_eq hmod
    rw [Nat.mod_eq_of_lt (by omega)] at hzero
    omega

-- ================================================================ typing

section

variable {rows cols : Nat} {color : FbconColor}

/-- Glyphs that leave room in their row are written one after the other. -/
theorem run_typeChar {text : List UINT8} {t : Terminal Drawn}
    (hglyphs : ∀ c ∈ text, ¬ c.toNat < 32 ∧ ¬ 127 < c.toNat)
    (hspace : t.col = 0 → text.head? ≠ some 32)
    (hroom : t.col + text.length < cols) :
    run (typeChar rows cols color) text t
      = Terminal.puts (text.map fun c => ⟨c, color⟩) t := by
  induction text generalizing t with
  | nil => rfl
  | cons c text ih =>
      obtain ⟨hge, hle⟩ := hglyphs c List.mem_cons_self
      rw [List.length_cons] at hroom
      have hno : ¬ (t.col = 0 ∧ c = 32) := fun h =>
        hspace h.1 (congrArg some h.2)
      have hput : typeChar rows cols color c t = t.put ⟨c, color⟩ :=
        (typeChar_of_glyph hge hle hno).trans
          (if_pos (show t.col + 1 < cols by omega))
      rw [run, hput, List.map_cons, Terminal.puts_cons]
      refine ih (fun c hc => hglyphs c (List.mem_cons_of_mem _ hc)) ?_ ?_
      · intro hzero
        exact absurd hzero (Nat.succ_ne_zero t.col)
      · show t.col + 1 + text.length < cols
        omega

end

/-- A message, and the line feed after it. -/
def typeMessage (scr : Screen) (msg : Message) :
    Terminal Drawn → Terminal Drawn :=
  typeBuffer scr msg.color (msg.text ++ [10])

/-- A call with a message types it. -/
theorem terminalCall_message (scr : Screen) (msg : Message)
    (t : Terminal Drawn) :
    terminalCall scr msg.call (some t) = some (typeMessage scr msg t) := by
  unfold Message.call typeMessage Message.color
  cases msg.critical with
  | false => rfl
  | true => rfl

/-- Calls with messages type them one after the other. -/
theorem run_terminalCall (scr : Screen) (messages : List Message)
    (t : Terminal Drawn) :
    run (terminalCall scr) (messages.map Message.call) (some t)
      = some (run (typeMessage scr) messages t) := by
  induction messages generalizing t with
  | nil => rfl
  | cons msg messages ih =>
      rw [List.map_cons, run, terminalCall_message]
      exact ih _

-- ================================================================ reading

/-- The text stands in a row, and nothing else does. -/
def RowReads (row : TextRow Drawn) (msg : Message) : Prop :=
  ∀ col, row.cells col
    = (msg.text[col]?).map fun c => ⟨c, msg.color⟩

/-- The messages that can be read, and the empty row after them. -/
structure Reads (scr : Screen) (messages : List Message)
    (t : Terminal Drawn) : Prop where
  row : t.row = messageRow scr.rows messages.length
  col : t.col = 0
  empty : ∀ col, (t.text t.row).cells col = none
  reads : ∀ k (hk : k < messages.length),
    Readable scr.rows messages.length k →
    RowReads (t.text (messageRow scr.rows k)) messages[k]

/-- An empty screen shows no message. -/
theorem reads_blank (scr : Screen) :
    Reads scr [] (Terminal.blank Drawn) :=
  ⟨rfl, rfl, fun _ => rfl, fun _ hk => absurd hk (Nat.not_lt_zero _)⟩

variable {scr : Screen} {messages : List Message} {t : Terminal Drawn}

/-- Typing in an empty row. -/
theorem rowReads_puts {msg : Message} (hcol : t.col = 0)
    (hempty : ∀ col, (t.text t.row).cells col = none) :
    RowReads ((Terminal.puts (msg.text.map fun c => ⟨c, msg.color⟩) t).text
      t.row) msg := by
  intro col
  rw [Terminal.puts_cells, hcol, List.length_map, Nat.zero_add,
    Nat.sub_zero, hempty]
  split
  · exact List.getElem?_map ..
  next hout =>
    have hge : msg.text.length ≤ col := by omega
    rw [List.getElem?_eq_none hge]
    rfl

/-- A line feed clears the row it goes to, and no other. -/
theorem lineFeed_text (hrows : 2 ≤ scr.rows) (n : Nat)
    (hrow : t.row = messageRow scr.rows n) :
    (lineFeed scr.rows t).row = messageRow scr.rows (n + 1)
      ∧ (∀ col, ((lineFeed scr.rows t).text
        (messageRow scr.rows (n + 1))).cells col = none)
      ∧ ∀ row, row ≠ messageRow scr.rows (n + 1) →
        (lineFeed scr.rows t).text row = t.text row := by
  rw [messageRow_succ hrows, ← hrow]
  unfold lineFeed
  split
  · refine ⟨rfl, fun col => ?_, fun row hne =>
      Terminal.nextRow_text_of_ne hne⟩
    rw [Terminal.nextRow_text_row]
  · refine ⟨rfl, fun col => ?_, fun row hne => ?_⟩
    · exact congrArg (fun row : TextRow Drawn => row.cells col)
        t.home.nextRow_text_row
    · exact Terminal.nextRow_text_of_ne (t := t.home) hne

/-- One more message. -/
theorem Reads.typeMessage (h : Reads scr messages t) {msg : Message}
    (hrows : 2 ≤ scr.rows) (hplain : Plain scr.cols msg.text) :
    Reads scr (messages ++ [msg]) (typeMessage scr msg t) := by
  have hroom : t.col + msg.text.length < scr.cols := by
    rw [h.col, Nat.zero_add]
    exact hplain.length_lt
  have hrun : run (typeChar scr.rows scr.cols msg.color) msg.text t = _ :=
    run_typeChar hplain.glyphs (fun _ => hplain.noSpace) hroom
  generalize hputs : Terminal.puts
    (msg.text.map fun c => (⟨c, msg.color⟩ : Drawn)) t = t₁ at hrun
  have htype : FrameBuffer.typeMessage scr msg t = lineFeed scr.rows t₁ := by
    unfold FrameBuffer.typeMessage typeBuffer
    rw [run_append, hrun]
    rfl
  have hrow₁ : t₁.row = messageRow scr.rows messages.length := by
    rw [← hputs, Terminal.puts_row, h.row]
  have hmsg : RowReads (t₁.text t.row) msg := by
    rw [← hputs]
    exact rowReads_puts h.col h.empty
  have hother : ∀ row, row ≠ t.row → t₁.text row = t.text row := by
    intro row hne
    rw [← hputs]
    exact Terminal.puts_text_of_ne _ hne
  obtain ⟨hrow, hempty, hkept⟩ := lineFeed_text hrows messages.length hrow₁
  have hlen : (messages ++ [msg]).length = messages.length + 1 :=
    List.length_append
  rw [htype]
  refine ⟨?_, lineFeed_col t₁, ?_, ?_⟩
  · rw [hrow, hlen]
  · rw [hrow]
    exact hempty
  · intro k hk hread
    rw [hlen] at hk hread
    rw [hkept _ (messageRow_ne hk hread)]
    by_cases hlast : k = messages.length
    · subst hlast
      rw [← h.row, List.getElem_concat_length rfl]
      exact hmsg
    · have hbefore : k < messages.length := by omega
      have hstill : Readable scr.rows messages.length k :=
        hread.imp id Nat.lt_of_succ_lt
      rw [List.getElem_append_left hbefore,
        hother _ (h.row ▸ messageRow_ne hbefore hstill)]
      exact h.reads k hbefore hstill

/-- The screen after any plain messages. -/
theorem reads_messages (hrows : 2 ≤ scr.rows) (messages : List Message)
    (hplain : ∀ msg ∈ messages, Plain scr.cols msg.text) :
    Reads scr messages
      (run (typeMessage scr) messages (Terminal.blank Drawn)) := by
  induction messages using List.reverseRecOn with
  | nil => exact reads_blank scr
  | append_singleton messages msg ih =>
      rw [run_append]
      have hmsg := hplain msg (List.mem_append_right _ List.mem_cons_self)
      have hbefore := ih fun msg' h => hplain msg' (List.mem_append_left _ h)
      exact hbefore.typeMessage hrows hmsg

/-- After any plain messages the first and the last that fit stand on the
screen, glyph for glyph and in their colours. -/
theorem messages_readable (hscr : Usable scr) (haddr : Addressable scr)
    {fuel : Nat} (hfuel : 2 ≤ fuel) (garbage : Nat → Bool)
    (messages : List Message)
    (hplain : ∀ msg ∈ messages, Plain scr.cols msg.text) {s : FbState}
    (hoff : s.initialized = false) (hstores : s.stores = []) (m : Mem) :
    ∃ s', serialPortCalls scr fuel garbage
        (.start :: messages.map Message.call) s = some s'
      ∧ ∀ k (hk : k < messages.length),
        Readable scr.rows messages.length k →
        ∀ col (hcol : col < messages[k].text.length),
          CellHolds messages[k].color
            (scr.layout.cellStart (messageRow scr.rows k) col)
            (scr.gWidth.setWidth 32) ((scr.gBpp / 8).setWidth 32)
            (scr.glyph messages[k].text[col]) scaleFactor
            (storeAll m s'.stores) := by
  obtain ⟨s', heq, h'⟩ := serialPortCalls_port (m := m) hscr haddr hfuel
    garbage (.start :: messages.map Message.call) (o := none)
    ⟨hoff, hstores⟩
  have hrun : run (terminalCall scr) (.start :: messages.map Message.call)
      none = some (run (typeMessage scr) messages (Terminal.blank Drawn)) :=
    run_terminalCall scr messages (Terminal.blank Drawn)
  rw [hrun] at h'
  refine ⟨s', heq, ?_⟩
  intro k hk hread col hcol
  have hreads := (reads_messages hscr.two_le_rows messages hplain).reads k
    hk hread col
  rw [List.getElem?_eq_getElem hcol] at hreads
  have hlen := (hplain _ (List.getElem_mem hk)).length_lt
  rw [h'.1.buffer]
  exact cellHolds_shown hscr haddr (Nat.lt_trans hcol hlen) hreads m

/-- Two messages, and the first glyph of the second. -/
theorem messages_readable_panel :
    ∃ s', serialPortCalls panel 2 (fun _ => false)
        [.start, .write [72, 105, 10], .writeCritical [33, 10]] dark
        = some s'
      ∧ CellHolds yellowOnBlack (panel.layout.cellStart 1 0) 1080 4
        (panel.glyph 33) scaleFactor (storeAll (fun _ => 0) s'.stores) := by
  have hplain : ∀ msg ∈ [Message.mk false [72, 105], ⟨true, [33]⟩],
      Plain panel.cols msg.text := by
    intro msg hmsg
    rcases List.mem_cons.1 hmsg with rfl | hmsg
    · exact ⟨by decide, by decide, by decide⟩
    · rw [List.mem_singleton.1 hmsg]
      exact ⟨by decide, by decide, by decide⟩
  obtain ⟨s', heq, hreads⟩ := messages_readable panel_usable
    panel_addressable (Nat.le_refl 2) (fun _ => false)
    [⟨false, [72, 105]⟩, ⟨true, [33]⟩] hplain (s := dark) rfl rfl
    (fun _ => 0)
  exact ⟨s', heq, hreads 1 (by decide) (.inr (by decide)) 0 (by decide)⟩

end Edk2Exynos.FrameBuffer
