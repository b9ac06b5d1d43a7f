import Mathlib.Data.List.Basic

/-!
# The names of the videos in the library (`src/library.c`, `src/lib/string_util.c`)

`mbox_library_local_video_name` takes the series, the season and the episode from the name of a
file.

* A string is the list of its bytes before the terminator, a byte is a `Char` and the terminator is
  `'\0'`.
* `buf` of `mbox_library_local_video_name` is its 1024 bytes, with what earlier strings left in it.
* The two regular expressions are matched by `regexec`: the first group is `(.*)`, so that the
  longest series comes first, and the last group takes the rest.  Memory is not exhausted.
-/

set_option autoImplicit false

namespace Mediabox.Library

abbrev CString := List Char

/-! ## Strings -/

/-- `basename` of `<libgen.h>` -/
def basename (path : CString) : CString :=
  if path = [] then ['.']
  else
    let path' := (path.reverse.dropWhile (· = '/'))
    if path' = [] then ['/'] else (path'.takeWhile (· ≠ '/')).reverse

/-- `strstr`: the offset of the first occurrence. -/
def strstr : CString → CString → Option Nat
  | [], what => if what = [] then some 0 else none
  | c :: str, what =>
    if what.isPrefixOf (c :: str) then some 0 else (strstr str what).map (· + 1)

/-- The second loop of `strreplace`, from `ins` on. -/
def strreplaceLoop (what rep : CString) : Nat → CString → CString → CString
  | 0, ret, ins => ret ++ ins
  | fuel + 1, ret, ins =>
    match strstr ins what with
    | none => ret ++ ins
    | some sublen =>
      strreplaceLoop what rep fuel (ret ++ ins.take sublen ++ rep)
        (ins.drop (sublen + what.length))

/-- `strreplace` -/
def strreplace (str what rep : CString) : CString :=
  if strstr str what = none then str
  else strreplaceLoop what rep (str.length + 1) [] str

/-- `strtrim` -/
def strtrim (str : CString) : CString :=
  let blank (c : Char) : Bool := c = ' ' || c = '\t'
  ((str.reverse.dropWhile blank).reverse).dropWhile blank

/-- `mbox_library_stripext`, what is left in `filename` -/
def stripext (filename : CString) : CString :=
  if filename = ['.', '.'] then filename
  else if '.' ∈ filename then ((filename.reverse.dropWhile (· ≠ '.')).drop 1).reverse
  else filename

/-- Each name with a slash before it. -/
def joined (ns : List CString) : CString := ns.flatMap ('/' :: ·)

/-- The path of a directory with a name after it, and a slash between them if there is none. -/
def buildPath (dirPath name : CString) : CString :=
  (if dirPath.getLast? ≠ some '/' then dirPath ++ ['/'] else dirPath) ++ name

/-! ## Titles -/

/-- The replacements at the start of `mbox_library_transform_video_title`. -/
def titleReplacements : List (String × String) :=
  [("\t", ""), ("YIFY", ""), ("BluRay", ""), ("x264", ""), ("BrRip", ""), ("HDRip", ""),
    ("AAC2", ""), ("AAC-JYK", ""), ("bitloks", ""), ("H264", ""), ("AAC-RARBG", ""),
    ("SiNNERS", ""), ("X264", ""), ("XViD", ""), ("XviD", ""), ("EVO", ""), ("_", " "),
    ("psig", " "), ("xvid", ""), ("dvdrip", ""), ("ac3", ""), ("AC3", ""), ("DvDrip", ""),
    ("DVDRip", ""), ("internal", ""), ("iNFAMOUS", ""), ("HD-CAM", ""), ("AC3-CPG", ""),
    ("HQMic", ""), ("BRRip", ""), ("Bluray", ""), ("500MB", ""), ("aXXo", ""), ("VPPV", ""),
    ("BOKUTOX", ""), ("George Lucas", ""), ("Eng Subs", ""), ("BRrip", ""), ("DTS", ""),
    ("GAZ", ""), ("AAC", ""), ("YTS", ""), ("AG", ""), ("RARBG", ""), ("CPG", ""), ("HD TS", ""),
    ("SyED", ""), ("MkvCage", ""), ("WEBRip", ""), ("HC ETRG", ""), ("DVDSrc", ""), ("XVID", ""),
    ("HQ Hive", ""), ("CM8", ""), ("mkv muxed old", ""), ("0 STUTTERSHIT", ""), ("WEB DL", ""),
    ("JYK", ""), ("Xvid", ""), ("avi", ""), ("mp4", ""), (".", " "), ("-", " ")]

def replaceAll (title : CString) (rs : List (String × String)) : CString :=
  rs.foldl (fun title r => strreplace title r.1.toList r.2.toList) title

/-- The loop of `mbox_library_transform_video_title`: each round shortens the title. -/
def squeezeBlanks : Nat → CString → CString
  | 0, title => title
  | fuel + 1, title =>
    let title' := strreplace title "  ".toList " ".toList
    if title' = title then title' else squeezeBlanks fuel title'

/-- `mbox_library_transform_video_title` -/
def transformVideoTitle (title : CString) : CString :=
  let title := replaceAll title titleReplacements
  let title := squeezeBlanks (title.length + 1) title
  let title := strtrim (replaceAll title [("[]", ""), ("[ ]", "")])
  if title = "COM".toList ∨ title = "com".toList then [] else title

/-! ## Series -/

/-- The longest beginning of `name` after which `match?` accepts. -/
def lastMatch {α : Type} (match? : CString → Option α) : CString → Option (CString × α)
  | [] => (match? []).map fun a => ([], a)
  | c :: cs =>
    match lastMatch match? cs with
    | some (before, a) => some (c :: before, a)
    | none => (match? (c :: cs)).map fun a => ([], a)

/-- The groups after the first one: the season, and what is copied after it. -/
structure Groups where
  season : CString
  third : CString
  fourth : CString
deriving DecidableEq, Repr

/-- `S([0-9][0-9])E([0-9][0-9])(.*)` -/
def matchEpisode : CString → Option Groups
  | s :: d1 :: d2 :: e :: d3 :: d4 :: rest =>
    if (s = 'S' || s = 's') && d1.isDigit && d2.isDigit && (e = 'E' || e = 'e') &&
        d3.isDigit && d4.isDigit then
      some ⟨[d1, d2], [d3, d4], rest⟩
    else none
  | _ => none

/-- `S([0-9][0-9])(.*)`, which has no fourth group -/
def matchSeason : CString → Option Groups
  | s :: d1 :: d2 :: rest =>
    if (s = 'S' || s = 's') && d1.isDigit && d2.isDigit then some ⟨[d1, d2], rest, []⟩
    else none
  | _ => none

/-- `regexec` with the first pattern, and if it does not match with the second. -/
def matchSerie (name : CString) : Option (CString × Groups) :=
  (lastMatch matchEpisode name).or (lastMatch matchSeason name)

/-! ## The buffer -/

/-- The string in a buffer. -/
def cstr (buf : List Char) : CString := buf.takeWhile (· ≠ '\x00')

/-- Bytes copied into a buffer. -/
def poke (buf : List Char) (off : Nat) (bytes : List Char) : List Char :=
  buf.take off ++ bytes ++ buf.drop (off + bytes.length)

/-- `strcpy(buf, str)` -/
def strcpy (buf : List Char) (str : CString) : List Char := poke buf 0 (str ++ ['\x00'])

/-- `strncat(buf, str, n)`, and `strcat` when all of it is taken -/
def strncat (buf : List Char) (str : CString) (n : Nat) : List Char :=
  poke buf (cstr buf).length (str.take n ++ ['\x00'])

/-- The names of a video. -/
inductive VideoName where
  | serie (serieName season episode : CString)
  | movie (name : CString)
deriving DecidableEq, Repr

/-- The strings of a series before the titles are transformed. -/
def serieStrings (before : CString) (m : Groups) : CString × CString × CString :=
  let buf := List.replicate 1024 '\x00'
  let buf := poke (poke buf 0 before) before.length ['\x00']
  let serieName := cstr buf
  let buf := poke (strncat (strcpy buf "Season ".toList) m.season m.season.length)
    (m.season.length + 7) ['\x00']
  let season := cstr buf
  let buf := poke (strncat (strcpy buf "Episode ".toList) m.third m.third.length)
    (m.third.length + 8) ['\x00']
  let buf := strncat buf " ".toList 1
  -- no terminator is written after these bytes
  let buf := poke buf (m.third.length + 9) m.fourth
  (serieName, season, cstr buf)

/-- `mbox_library_local_video_name`, without the directories -/
def videoName (path : CString) : VideoName :=
  let name := stripext (basename path)
  match matchSerie name with
  | some (before, m) =>
    let (serieName, season, episode) := serieStrings before m
    .serie (strtrim (transformVideoTitle serieName)) season (transformVideoTitle episode)
  | none => .movie (transformVideoTitle name)

example : videoName "/v/The.Wire.S01E02.avi".toList =
    .serie "The Wire".toList "Season 01".toList "Episode 02".toList := by decide +kernel

example : videoName "/v/Heat.1995.mp4".toList = .movie "Heat 1995".toList := by decide +kernel

end Mediabox.Library
