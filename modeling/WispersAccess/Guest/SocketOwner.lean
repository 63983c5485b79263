import WispersAccess.Foundation.Words
import Mathlib.Data.List.Forall2

/-!
# Owners of sockets

A share's port takes connections of this user's processes only.  On Linux the kernel
lists every TCP socket with its addresses and the user ID of its owner; the socket at
the other end of a connection is the one whose own address is the connection's peer.
-/

namespace WispersAccess
namespace Guest

open Foundation

/-!
## Addresses
-/

/-- So many bytes. -/
structure Octets (n : Nat) where
  bytes : List UInt8
  length_bytes : bytes.length = n
  deriving DecidableEq, Repr

inductive IpAddr where
  | v4 (octets : Octets 4)
  | v6 (octets : Octets 16)
  deriving DecidableEq, Repr

inductive SocketAddr where
  | v4 (octets : Octets 4) (port : UInt16)
  | v6 (octets : Octets 16) (port : UInt16) (flowinfo scopeId : UInt32)
  deriving DecidableEq, Repr

namespace SocketAddr

/-- `SocketAddr::new`, without flow information and scope. -/
def new (ip : IpAddr) (port : UInt16) : SocketAddr :=
  match ip with
  | IpAddr.v4 octets => v4 octets port
  | IpAddr.v6 octets => v6 octets port 0 0

def ip : SocketAddr -> IpAddr
  | v4 octets _ => IpAddr.v4 octets
  | v6 octets _ _ _ => IpAddr.v6 octets

def port : SocketAddr -> UInt16
  | v4 _ port => port
  | v6 _ port _ _ => port

/-- The address without flow information and scope, which IPv4 does not have. -/
def unscoped (addr : SocketAddr) : SocketAddr :=
  new addr.ip addr.port

end SocketAddr

def IpAddr.bytes : IpAddr -> List UInt8
  | v4 octets => octets.bytes
  | v6 octets => octets.bytes

/-- The IP address of four or sixteen bytes. -/
def ipOfBytes (bytes : List UInt8) : Option IpAddr :=
  if h : bytes.length = 4 then some (IpAddr.v4 ⟨bytes, h⟩)
  else if h : bytes.length = 16 then some (IpAddr.v6 ⟨bytes, h⟩)
  else none

/-- `0100007F:1F90`: the address as the kernel's native-endian 32-bit words in hex, a colon, and
the port in hex. -/
def parseAddr (e : Endian) (field : List Char) : Option SocketAddr := do
  let (ip, port) <- splitOnce ':' field
  let port <- parseHexU16 port
  let words <- (List.range (utf8Length ip / 8)).mapM fun i =>
    (textGet ip (i * 8) (i * 8 + 8)).bind parseHexU32
  let ip <- ipOfBytes (words.flatMap e.bytes)
  return SocketAddr.new ip port

/-!
## The table
-/

/-- `str::lines`. -/
def textLines (cs : List Char) : List (List Char) :=
  let parts := cs.splitOn '\n'
  let ended := parts.dropLast.map fun line =>
    if line.getLast? = some '\r' then line.dropLast else line
  match parts.getLast? with
  | none => ended
  | some last => if last = [] then ended else ended ++ [last]

/-- `str::split_whitespace`. -/
def splitWhitespace (cs : List Char) : List (List Char) :=
  (cs.splitOnP isWhiteSpace).filter fun field => field ≠ []

/-- The owner that a line tells, if it is about the socket. -/
def lineOwner (e : Endian) (localAddr peer : SocketAddr) (line : List Char) : Option UInt32 := do
  let fields := splitWhitespace line
  let own <- fields[1]?
  let far <- fields[2]?
  let uid <- fields[7]?
  let own <- parseAddr e own
  if own = peer then
    let far <- parseAddr e far
    if far = localAddr then parseU32 uid else none
  else none

/-- The user ID of the socket whose own end is `peer` and whose far end is `localAddr`, in a table
formatted as `/proc/net/tcp`. -/
def ownerUid (e : Endian) (table : List Char) (localAddr peer : SocketAddr) : Option UInt32 :=
  ((textLines table).drop 1).findSome? (lineOwner e localAddr peer)

/-- The kernel's tables, where they can be read. -/
structure SocketTables where
  tcp : Except String (List Char)
  tcp6 : Except String (List Char)

def SocketTables.of (tables : SocketTables) : SocketAddr -> Except String (List Char)
  | SocketAddr.v4 _ _ => tables.tcp
  | SocketAddr.v6 _ _ _ _ => tables.tcp6

def isSameUser (e : Endian) (tables : SocketTables) (euid : UInt32)
    (localAddr peer : SocketAddr) : Except String Bool := do
  let table <- tables.of peer
  match ownerUid e table localAddr peer with
  | none => Except.error "no such connection"
  | some owner => return owner == euid

/-- Whether the connection comes from a process of this user; one whose owner cannot be told is
refused as well. -/
def connectedByThisUser (e : Endian) (tables : SocketTables) (euid : UInt32)
    (localAddr peer : Option SocketAddr) : Bool :=
  match localAddr, peer with
  | some localAddr, some peer =>
      match isSameUser e tables euid localAddr peer with
      | Except.ok same => same
      | Except.error _ => false
  | _, _ => false

/-!
## The kernel's text
-/

/-- The kernel's text for an address. -/
def addrText (e : Endian) (addr : SocketAddr) : List Char :=
  let bytes := addr.ip.bytes
  ((groups 4 (bytes.length / 4) bytes).flatMap fun word => hexWord 8 (e.word word).toNat) ++
    ':' :: hexWord 4 addr.port.toNat

/-- A row of the kernel's table. -/
structure Row where
  own : SocketAddr
  far : SocketAddr
  uid : UInt32
  deriving DecidableEq, Repr

/-- What a line of the table tells: it is a row, or has fewer than eight fields. -/
inductive KernelLine (e : Endian) : List Char -> Option Row -> Prop where
  | row {line : List Char} (row : Row)
      (own : (splitWhitespace line)[1]? = some (addrText e row.own))
      (far : (splitWhitespace line)[2]? = some (addrText e row.far))
      (uid : (splitWhitespace line)[7]? = some (Nat.toDigits 10 row.uid.toNat)) :
      KernelLine e line (some row)
  | other {line : List Char} (short : (splitWhitespace line).length < 8) :
      KernelLine e line none

/-- A table of the kernel: a header, then rows with other lines in between. -/
def KernelTable (e : Endian) (table : List Char) (rows : List (Option Row)) : Prop :=
  List.Forall₂ (KernelLine e) ((textLines table).drop 1) rows

/-!
## Addresses are read back
-/

theorem ipOfBytes_bytes (ip : IpAddr) : ipOfBytes ip.bytes = some ip := by
  unfold ipOfBytes
  cases ip with
  | v4 octets => exact dif_pos octets.length_bytes
  | v6 octets =>
      have hlength : octets.bytes.length = 16 := octets.length_bytes
      have hlonger : ¬ octets.bytes.length = 4 := by omega
      exact (dif_neg hlonger).trans (dif_pos hlength)

theorem length_ip_bytes (ip : IpAddr) : ip.bytes.length = ip.bytes.length / 4 * 4 := by
  cases ip with
  | v4 octets =>
      show octets.bytes.length = octets.bytes.length / 4 * 4
      rw [octets.length_bytes]
  | v6 octets =>
      show octets.bytes.length = octets.bytes.length / 4 * 4
      rw [octets.length_bytes]

/-- The words of an address, in hex. -/
def wordsText (words : List UInt32) : List Char :=
  words.flatMap fun word => hexWord 8 word.toNat

theorem length_hexWord_word (word : UInt32) : (hexWord 8 word.toNat).length = 8 :=
  length_hexWord (by decide) word.toNat_lt

theorem length_wordsText (words : List UInt32) : (wordsText words).length = words.length * 8 := by
  unfold wordsText
  induction words with
  | nil => rfl
  | cons word words ih =>
      rw [List.flatMap_cons, List.length_append, ih, length_hexWord_word, List.length_cons]
      omega

theorem isSome_hexDigit_of_mem_wordsText {words : List UInt32} {c : Char}
    (h : c ∈ wordsText words) : (hexDigit c).isSome = true := by
  rcases List.mem_flatMap.mp h with ⟨word, -, hc⟩
  exact isSome_hexDigit_of_mem_hexWord hc

/-- Each word is read at its own place. -/
theorem words_of_text (words : List UInt32) :
    (List.range (utf8Length (wordsText words) / 8)).mapM (fun i =>
      (textGet (wordsText words) (i * 8) (i * 8 + 8)).bind parseHexU32) = some words := by
  have hsingle : forall c, c ∈ wordsText words -> c.utf8Size = 1 :=
    fun c hc => utf8Size_of_hexDigit (isSome_hexDigit_of_mem_wordsText hc)
  have hlength := length_wordsText words
  rw [utf8Length_of_single hsingle, hlength, Nat.mul_div_cancel _ (by decide)]
  refine mapM_range_of_getElem? ?_
  intro i hi
  have hstop : i * 8 + 8 ≤ (wordsText words).length := by omega
  have hgroups := groups_flatMap length_hexWord_word words []
  rw [List.append_nil] at hgroups
  have hcut : (groups 8 words.length (wordsText words))[i]? =
      some (((wordsText words).drop (i * 8)).take 8) :=
    getElem?_groups hi _
  have hword : hexWord 8 words[i].toNat = ((wordsText words).drop (i * 8)).take 8 := by
    unfold wordsText at hcut ⊢
    rw [hgroups, List.getElem?_map, List.getElem?_eq_getElem hi] at hcut
    exact Option.some.inj hcut
  rw [textGet_of_single hsingle (Nat.le_add_right _ _) hstop, Nat.add_sub_cancel_left,
    Option.bind_some, ← hword, parseHexU32_hexWord, List.getElem?_eq_getElem hi]

/-- The bytes of the words that bytes are cut into. -/
theorem bytes_of_words (e : Endian) {bytes : List UInt8} {n : Nat} (h : bytes.length = n * 4) :
    ((groups 4 n bytes).map e.word).flatMap e.bytes = bytes := by
  have hback : forall g, g ∈ groups 4 n bytes -> e.bytes (e.word g) = g :=
    fun g hg => e.bytes_word (length_of_mem_groups h hg)
  rw [List.flatMap_map, List.flatMap_def, List.map_congr_left hback, List.map_id',
    flatten_groups h]

theorem addrText_eq (e : Endian) (addr : SocketAddr) :
    addrText e addr =
      wordsText ((groups 4 (addr.ip.bytes.length / 4) addr.ip.bytes).map e.word) ++
        ':' :: hexWord 4 addr.port.toNat := by
  unfold addrText wordsText
  rw [List.flatMap_map]

/-- The kernel's text is read back, but for what the kernel leaves out of it. -/
theorem parseAddr_addrText (e : Endian) (addr : SocketAddr) :
    parseAddr e (addrText e addr) = some addr.unscoped := by
  have hcolon : ':' ∉ wordsText
      ((groups 4 (addr.ip.bytes.length / 4) addr.ip.bytes).map e.word) := by
    intro hmem
    have hdigit := isSome_hexDigit_of_mem_wordsText hmem
    cases hdigit
  rw [addrText_eq]
  unfold parseAddr
  rw [splitOnce_append hcolon]
  show (do
    let port <- parseHexU16 (hexWord 4 addr.port.toNat)
    let words <- _
    let ip <- ipOfBytes (List.flatMap e.bytes words)
    return SocketAddr.new ip port) = _
  rw [parseHexU16_hexWord, words_of_text]
  show (do
    let ip <- ipOfBytes (((groups 4 (addr.ip.bytes.length / 4) addr.ip.bytes).map e.word).flatMap
      e.bytes)
    return SocketAddr.new ip addr.port) = _
  rw [bytes_of_words e (length_ip_bytes addr.ip), ipOfBytes_bytes]
  rfl

/-!
## Rows are found
-/

/-- A table is made of its lines. -/
theorem textLines_joined {front : List (List Char)} {last : List Char}
    (hnewline : forall line, line ∈ front ++ [last] -> '\n' ∉ line)
    (hreturn : forall line, line ∈ front -> line.getLast? ≠ some '\r') (hlast : last ≠ []) :
    textLines (['\n'].intercalate (front ++ [last])) = front ++ [last] := by
  have hnonempty : front ++ [last] ≠ [] := List.append_ne_nil_of_right_ne_nil _ (by simp)
  have hended : (front.map fun line =>
      if line.getLast? = some '\r' then line.dropLast else line) = front := by
    rw [List.map_congr_left fun line hline => if_neg (hreturn line hline)]
    exact List.map_id' front
  unfold textLines
  rw [List.splitOn_intercalate '\n' hnewline hnonempty]
  simp only [List.dropLast_concat, List.getLast?_concat, hended, if_neg hlast]

section
variable {e : Endian} {localAddr peer : SocketAddr} {line : List Char}

/-- A row tells its owner where both of its addresses are the connection's. -/
theorem lineOwner_row {row : Row}
    (hown : (splitWhitespace line)[1]? = some (addrText e row.own))
    (hfar : (splitWhitespace line)[2]? = some (addrText e row.far))
    (huid : (splitWhitespace line)[7]? = some (Nat.toDigits 10 row.uid.toNat)) :
    lineOwner e localAddr peer line =
      if row.own.unscoped = peer ∧ row.far.unscoped = localAddr then some row.uid else none := by
  unfold lineOwner
  simp only [hown, hfar, huid, Option.bind_eq_bind, Option.bind_some, parseAddr_addrText,
    parseU32_toDigits]
  by_cases hpeer : row.own.unscoped = peer
  · by_cases hlocal : row.far.unscoped = localAddr
    · rw [if_pos hpeer, if_pos hlocal, if_pos ⟨hpeer, hlocal⟩]
    · rw [if_pos hpeer, if_neg hlocal, if_neg fun h => hlocal h.right]
  · rw [if_neg hpeer, if_neg fun h => hpeer h.left]

theorem lineOwner_short (h : (splitWhitespace line).length < 8) :
    lineOwner e localAddr peer line = none := by
  have huid : (splitWhitespace line)[7]? = none := List.getElem?_eq_none (by omega)
  unfold lineOwner
  simp only [huid, Option.bind_eq_bind, Option.bind_none, Option.bind_fun_none]

/-- The owner is that of the first row about the socket. -/
theorem findSome?_lineOwner {lines : List (List Char)} {rows : List (Option Row)}
    (h : List.Forall₂ (KernelLine e) lines rows) :
    lines.findSome? (lineOwner e localAddr peer) =
      ((rows.filterMap id).find? fun row =>
        row.own.unscoped = peer ∧ row.far.unscoped = localAddr).map Row.uid := by
  induction h with
  | nil => rfl
  | cons hline hlines ih =>
      rw [List.findSome?_cons]
      cases hline with
      | row row hown hfar huid =>
          have hrow : id (some row) = some row := rfl
          rw [lineOwner_row hown hfar huid, List.filterMap_cons_some hrow, List.find?_cons]
          by_cases hsocket : row.own.unscoped = peer ∧ row.far.unscoped = localAddr
          · rw [if_pos hsocket, decide_eq_true hsocket]
            rfl
          · rw [if_neg hsocket, decide_eq_false hsocket]
            exact ih
      | other hshort =>
          rw [lineOwner_short hshort]
          exact ih

/-- No address in the table has flow information or a scope. -/
theorem unscoped_of_parseAddr {field : List Char} {addr : SocketAddr}
    (h : parseAddr e field = some addr) : addr.unscoped = addr := by
  unfold parseAddr at h
  simp only [Option.bind_eq_bind, Option.bind_eq_some_iff] at h
  rcases h with ⟨_, _, _, _, _, _, ip, _, hnew⟩
  cases hnew
  cases ip with
  | v4 octets => rfl
  | v6 octets => rfl

/-- The owner of a connection from a peer with a scope is not told, whatever the table. -/
theorem ownerUid_scoped (h : peer.unscoped ≠ peer) (table : List Char) :
    ownerUid e table localAddr peer = none := by
  unfold ownerUid
  rw [List.findSome?_eq_none_iff]
  intro line _
  unfold lineOwner
  simp only [Option.bind_eq_bind, Option.bind_eq_none_iff]
  intro own _ far _ uid _ addr haddr
  have hother : ¬ addr = peer := fun heq => h (heq ▸ unscoped_of_parseAddr haddr)
  rw [if_neg hother]

end

/-- What the kernel's texts and tables say is read off them, as far as they say it: an address
without flow information and scope, and the owner of the first row about the socket. -/
theorem owners_read_off_table (e : Endian) :
    (forall octets port, parseAddr e (addrText e (SocketAddr.v4 octets port)) =
      some (SocketAddr.v4 octets port)) ∧
    (forall octets port flowinfo scopeId,
      parseAddr e (addrText e (SocketAddr.v6 octets port flowinfo scopeId)) =
        some (SocketAddr.v6 octets port 0 0)) ∧
    (forall table rows, KernelTable e table rows -> forall localAddr peer,
      ownerUid e table localAddr peer =
        ((rows.filterMap id).find? fun row =>
          row.own.unscoped = peer ∧ row.far.unscoped = localAddr).map Row.uid) := by
  refine ⟨?_, ?_, ?_⟩
  · intro octets port
    exact parseAddr_addrText e (SocketAddr.v4 octets port)
  · intro octets port flowinfo scopeId
    exact parseAddr_addrText e (SocketAddr.v6 octets port flowinfo scopeId)
  · intro table rows htable localAddr peer
    exact findSome?_lineOwner htable

/-- A connection that is taken has a row of this user's in the kernel's table. -/
theorem row_of_connectedByThisUser {e : Endian} {tables : SocketTables} {euid : UInt32}
    {localAddr peer : SocketAddr} {table : List Char} {rows : List (Option Row)}
    (htable : tables.of peer = Except.ok table) (hrows : KernelTable e table rows)
    (h : connectedByThisUser e tables euid (some localAddr) (some peer) = true) :
    exists row, some row ∈ rows ∧ row.own.unscoped = peer ∧ row.far.unscoped = localAddr ∧
      row.uid = euid := by
  unfold connectedByThisUser isSameUser at h
  simp only [htable, bind, Except.bind] at h
  cases howner : ownerUid e table localAddr peer with
  | none =>
      rw [howner] at h
      cases h
  | some owner =>
      rw [howner] at h
      have huid : owner = euid := eq_of_beq h
      unfold ownerUid at howner
      rw [findSome?_lineOwner hrows] at howner
      rcases Option.map_eq_some_iff.mp howner with ⟨row, hfind, hrow⟩
      have hfound := List.find?_some hfind
      have hsocket := of_decide_eq_true hfound
      rcases List.mem_filterMap.mp (List.mem_of_find?_eq_some hfind) with ⟨_, hmem, rfl⟩
      exact ⟨row, hmem, hsocket.left, hsocket.right, hrow.trans huid⟩

/-!
## Addresses with a scope
-/

/-- `[fe80::1%2]:8080`. -/
def linkLocal : SocketAddr :=
  SocketAddr.v6 ⟨[0xfe, 0x80, 0, 0, 0, 0, 0, 0, 0, 0, 0, 0, 0, 0, 0, 1], rfl⟩ 8080 0 2

/-- The scope is not in the kernel's text, so that the address is not read back. -/
theorem scope_not_in_table :
    parseAddr Endian.little (addrText Endian.little linkLocal) ≠ some linkLocal := by
  rw [parseAddr_addrText]
  decide

/-!
## A table
-/

def loopbackSocket (port : UInt16) : SocketAddr :=
  SocketAddr.v4 ⟨[127, 0, 0, 1], rfl⟩ port

def anySocket : SocketAddr :=
  SocketAddr.v4 ⟨[0, 0, 0, 0], rfl⟩ 0

def listening : String :=
  "   0: 0100007F:1F90 00000000:0000 0A 00000000:00000000 00:00000000 00000000  1000        0 1 1"

def connecting : String :=
  "   1: 0100007F:C350 0100007F:1F90 01 00000000:00000000 00:00000000 00000000  1001        0 2 1"

/-- A port that one user listens on, a line between, and another user's connection to the port. -/
def twoUsers : List Char :=
  ['\n'].intercalate (["  sl  local_address rem_address   st".toList, listening.toList,
    "   (no socket)".toList] ++ [connecting.toList])

theorem kernelTable_twoUsers :
    KernelTable Endian.little twoUsers
      [some { own := loopbackSocket 8080, far := anySocket, uid := 1000 }, none,
        some { own := loopbackSocket 50000, far := loopbackSocket 8080, uid := 1001 }] := by
  -- The characters of a literal, so that what is computed below computes on lists.
  have hheader : "  sl  local_address rem_address   st".toList = _ := String.toList_ofList
  have hlistening : listening.toList = _ := String.toList_ofList
  have hother : "   (no socket)".toList = _ := String.toList_ofList
  have hconnecting : connecting.toList = _ := String.toList_ofList
  unfold KernelTable twoUsers
  rw [hheader, hlistening, hother, hconnecting,
    textLines_joined (by decide +kernel) (by decide +kernel) (by decide)]
  refine List.Forall₂.cons ?_ (List.Forall₂.cons ?_ (List.Forall₂.cons ?_ List.Forall₂.nil))
  · refine KernelLine.row _ ?_ ?_ ?_
    · decide +kernel
    · decide +kernel
    · decide +kernel
  · exact KernelLine.other (by decide +kernel)
  · refine KernelLine.row _ ?_ ?_ ?_
    · decide +kernel
    · decide +kernel
    · decide +kernel

theorem owners_read_off_table_two_users :
    ownerUid Endian.little twoUsers (loopbackSocket 8080) (loopbackSocket 50000) = some 1001 ∧
      ownerUid Endian.little twoUsers (loopbackSocket 50000) (loopbackSocket 8080) = none := by
  have howner := (owners_read_off_table Endian.little).right.right _ _ kernelTable_twoUsers
  rw [howner, howner]
  decide

end Guest
end WispersAccess
