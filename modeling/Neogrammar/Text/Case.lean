import Neogrammar.Text.Ranges

/-!
# Letter case

One code point goes to one code point: where the full mapping of a letter is longer, its first
code point counts. `variants` lists the lower-case letters that share an upper-case one.
-/
namespace Neogrammar.Text

/-- Code points from `low` to `high`, every `stride`-th of which moves by `shift`. -/
structure CaseRun where
  low : Nat
  high : Nat
  stride : Nat
  shift : Int
  deriving Repr

/-- Read one run written `41-5A+32`, or `100-12E/2+1` for every other code point. -/
def CaseRun.ofText (item : List Char) : CaseRun :=
  let bounds := item.takeWhile fun c => c != '+' && c != '/' && c != '~'
  let tail := item.drop bounds.length
  let stride := if tail.head? == some '/' then 2 else 1
  let signed := if stride == 2 then tail.drop 2 else tail
  let size : Nat := (signed.drop 1).foldl (fun n d => 10 * n + (d.toNat - '0'.toNat)) 0
  let shift : Int := if signed.head? == some '~' then -(size : Int) else size
  match cutAt (· == '-') bounds with
  | [low, high] => ⟨hexValue low, hexValue high, stride, shift⟩
  | parts => ⟨hexValue parts.flatten, hexValue parts.flatten, stride, shift⟩

/-- A mapping of code points, as runs in ascending order. -/
abbrev CaseMap := Array CaseRun

def CaseMap.ofText (text : String) : CaseMap :=
  ((entries text).map CaseRun.ofText).toArray

/-- The image of `c`, which is `c` outside every run. -/
def CaseMap.image (m : CaseMap) (c : Nat) : Nat :=
  match lastAtOrBefore (fun i => (m[i]?.map CaseRun.low).getD 0) c 20 0 m.size with
  | none => c
  | some i =>
    match m[i]? with
    | none => c
    | some run =>
      if c ≤ run.high && (c - run.low) % run.stride == 0 then (c + run.shift).toNat else c

def lowerRuns : CaseMap := CaseMap.ofText
  "41-5A+32 C0-D6+32 D8-DE+32 100-12E/2+1 130~199 132-136/2+1 139-147/2+1 14A-176/2+1 178~121
  179-17D/2+1 181+210 182-184/2+1 186+206 187+1 189-18A+205 18B+1 18E+79 18F+202 190+203 191+1
  193+205 194+207 196+211 197+209 198+1 19C+211 19D+213 19F+214 1A0-1A4/2+1 1A6+218 1A7+1
  1A9+218 1AC+1 1AE+218 1AF+1 1B1-1B2+217 1B3-1B5/2+1 1B7+219 1B8+1 1BC+1 1C4+2 1C5+1 1C7+2
  1C8+1 1CA+2 1CB-1DB/2+1 1DE-1EE/2+1 1F1+2 1F2-1F4/2+1 1F6~97 1F7~56 1F8-21E/2+1 220~130
  222-232/2+1 23A+10795 23B+1 23D~163 23E+10792 241+1 243~195 244+69 245+71 246-24E/2+1
  370-372/2+1 376+1 37F+116 386+38 388-38A+37 38C+64 38E-38F+63 391-3A1+32 3A3-3AB+32 3CF+8
  3D8-3EE/2+1 3F4~60 3F7+1 3F9~7 3FA+1 3FD-3FF~130 400-40F+80 410-42F+32 460-480/2+1
  48A-4BE/2+1 4C0+15 4C1-4CD/2+1 4D0-52E/2+1 531-556+48 10A0-10C5+7264 10C7+7264 10CD+7264
  13A0-13EF+38864 13F0-13F5+8 1C90-1CBA~3008 1CBD-1CBF~3008 1E00-1E94/2+1 1E9E~7615
  1EA0-1EFE/2+1 1F08-1F0F~8 1F18-1F1D~8 1F28-1F2F~8 1F38-1F3F~8 1F48-1F4D~8 1F59-1F5F/2~8
  1F68-1F6F~8 1F88-1F8F~8 1F98-1F9F~8 1FA8-1FAF~8 1FB8-1FB9~8 1FBA-1FBB~74 1FBC~9 1FC8-1FCB~86
  1FCC~9 1FD8-1FD9~8 1FDA-1FDB~100 1FE8-1FE9~8 1FEA-1FEB~112 1FEC~7 1FF8-1FF9~128 1FFA-1FFB~126
  1FFC~9 2126~7517 212A~8383 212B~8262 2132+28 2160-216F+16 2183+1 24B6-24CF+26 2C00-2C2F+48
  2C60+1 2C62~10743 2C63~3814 2C64~10727 2C67-2C6B/2+1 2C6D~10780 2C6E~10749 2C6F~10783
  2C70~10782 2C72+1 2C75+1 2C7E-2C7F~10815 2C80-2CE2/2+1 2CEB-2CED/2+1 2CF2+1 A640-A66C/2+1
  A680-A69A/2+1 A722-A72E/2+1 A732-A76E/2+1 A779-A77B/2+1 A77D~35332 A77E-A786/2+1 A78B+1
  A78D~42280 A790-A792/2+1 A796-A7A8/2+1 A7AA~42308 A7AB~42319 A7AC~42315 A7AD~42305 A7AE~42308
  A7B0~42258 A7B1~42282 A7B2~42261 A7B3+928 A7B4-A7C2/2+1 A7C4~48 A7C5~42307 A7C6~35384
  A7C7-A7C9/2+1 A7D0+1 A7D6-A7D8/2+1 A7F5+1 FF21-FF3A+32 10400-10427+40 104B0-104D3+40
  10570-1057A+39 1057C-1058A+39 1058C-10592+39 10594-10595+39 10C80-10CB2+64 118A0-118BF+32
  16E40-16E5F+32 1E900-1E921+34"

def upperRuns : CaseMap := CaseMap.ofText
  "61-7A~32 B5+743 DF~140 E0-F6~32 F8-FE~32 FF+121 101-12F/2~1 131~232 133-137/2~1 13A-148/2~1
  149+371 14B-177/2~1 17A-17E/2~1 17F~300 180+195 183-185/2~1 188~1 18C~1 192~1 195+97 199~1
  19A+163 19E+130 1A1-1A5/2~1 1A8~1 1AD~1 1B0~1 1B4-1B6/2~1 1B9~1 1BD~1 1BF+56 1C5~1 1C6~2
  1C8~1 1C9~2 1CB~1 1CC~2 1CE-1DC/2~1 1DD~79 1DF-1EF/2~1 1F0~422 1F2~1 1F3~2 1F5~1 1F9-21F/2~1
  223-233/2~1 23C~1 23F-240+10815 242~1 247-24F/2~1 250+10783 251+10780 252+10782 253~210
  254~206 256-257~205 259~202 25B~203 25C+42319 260~205 261+42315 263~207 265+42280 266+42308
  268~209 269~211 26A+42308 26B+10743 26C+42305 26F~211 271+10749 272~213 275~214 27D+10727
  280~218 282+42307 283~218 287+42282 288~218 289~69 28A-28B~217 28C~71 292~219 29D+42261
  29E+42258 345+84 371-373/2~1 377~1 37B-37D+130 390+9 3AC~38 3AD-3AF~37 3B0~11 3B1-3C1~32
  3C2~31 3C3-3CB~32 3CC~64 3CD-3CE~63 3D0~62 3D1~57 3D5~47 3D6~54 3D7~8 3D9-3EF/2~1 3F0~86
  3F1~80 3F2+7 3F3~116 3F5~96 3F8~1 3FB~1 430-44F~32 450-45F~80 461-481/2~1 48B-4BF/2~1
  4C2-4CE/2~1 4CF~15 4D1-52F/2~1 561-586~48 587~82 10D0-10FA+3008 10FD-10FF+3008 13F8-13FD~8
  1C80~6254 1C81~6253 1C82~6244 1C83-1C84~6242 1C85~6243 1C86~6236 1C87~6181 1C88+35266
  1D79+35332 1D7D+3814 1D8E+35384 1E01-1E95/2~1 1E96~7758 1E97~7747 1E98~7745 1E99~7744
  1E9A~7769 1E9B~59 1EA1-1EFF/2~1 1F00-1F07+8 1F10-1F15+8 1F20-1F27+8 1F30-1F37+8 1F40-1F45+8
  1F50~7083 1F51+8 1F52~7085 1F53+8 1F54~7087 1F55+8 1F56~7089 1F57+8 1F60-1F67+8 1F70-1F71+74
  1F72-1F75+86 1F76-1F77+100 1F78-1F79+128 1F7A-1F7B+112 1F7C-1F7D+126 1F80-1F87~120
  1F88-1F8F~128 1F90-1F97~104 1F98-1F9F~112 1FA0-1FA7~56 1FA8-1FAF~64 1FB0-1FB2+8 1FB3~7202
  1FB4~7214 1FB6~7205 1FB7~7206 1FBC~7211 1FBE~7205 1FC2+8 1FC3~7212 1FC4~7227 1FC6~7215
  1FC7~7216 1FCC~7221 1FD0-1FD1+8 1FD2~7225 1FD3~7226 1FD6~7229 1FD7~7230 1FE0-1FE1+8 1FE2~7229
  1FE3~7230 1FE4~7235 1FE5+7 1FE6~7233 1FE7~7234 1FF2+8 1FF3~7242 1FF4~7269 1FF6~7245 1FF7~7246
  1FFC~7251 214E~28 2170-217F~16 2184~1 24D0-24E9~26 2C30-2C5F~48 2C61~1 2C65~10795 2C66~10792
  2C68-2C6C/2~1 2C73~1 2C76~1 2C81-2CE3/2~1 2CEC-2CEE/2~1 2CF3~1 2D00-2D25~7264 2D27~7264
  2D2D~7264 A641-A66D/2~1 A681-A69B/2~1 A723-A72F/2~1 A733-A76F/2~1 A77A-A77C/2~1 A77F-A787/2~1
  A78C~1 A791-A793/2~1 A794+48 A797-A7A9/2~1 A7B5-A7C3/2~1 A7C8-A7CA/2~1 A7D1~1 A7D7-A7D9/2~1
  A7F6~1 AB53~928 AB70-ABBF~38864 FB00~64186 FB01~64187 FB02~64188 FB03~64189 FB04~64190
  FB05~64178 FB06~64179 FB13~62927 FB14~62928 FB15~62929 FB16~62920 FB17~62931 FF41-FF5A~32
  10428-1044F~40 104D8-104FB~40 10597-105A1~39 105A3-105B1~39 105B3-105B9~39 105BB-105BC~39
  10CC0-10CF2~64 118C0-118DF~32 16E60-16E7F~32 1E922-1E943~34"

def asciiLower (c : Nat) : Nat := if 0x41 ≤ c && c ≤ 0x5A then c + 32 else c

def asciiUpper (c : Nat) : Nat := if 0x61 ≤ c && c ≤ 0x7A then c - 32 else c

def lower (c : Nat) : Nat := if c < 0x80 then asciiLower c else lowerRuns.image c

def upper (c : Nat) : Nat := if c < 0x80 then asciiUpper c else upperRuns.image c

/-- A letter with a partner in the other case. -/
def isCased (c : Nat) : Bool := c != lower c || c != upper c

def isAsciiCased (c : Nat) : Bool := c != asciiLower c || c != asciiUpper c

/-- Lower-case letters that are one letter in upper case: each with its companions. -/
def variantTable : List (Nat × List Nat) :=
  (entries
  "69:131 73:17F B5:3BC 131:69 17F:73 345:3B9,1FBE 390:1FD3 3B0:1FE3 3B2:3D0 3B5:3F5 3B8:3D1
  3B9:345,1FBE 3BA:3F0 3BC:B5 3C0:3D6 3C1:3F1 3C2:3C3 3C3:3C2 3C6:3D5 3D0:3B2 3D1:3B8 3D5:3C6
  3D6:3C0 3F0:3BA 3F1:3C1 3F5:3B5 432:1C80 434:1C81 43E:1C82 441:1C83 442:1C84,1C85 44A:1C86
  463:1C87 1C80:432 1C81:434 1C82:43E 1C83:441 1C84:442,1C85 1C85:442,1C84 1C86:44A 1C87:463
  1C88:A64B 1E61:1E9B 1E9B:1E61 1FBE:345,3B9 1FD3:390 1FE3:3B0 A64B:1C88 FB05:FB06 FB06:FB05").map fun item =>
      match cutAt (· == ':') item with
      | [letter, others] => (hexValue letter, (cutAt (· == ',') others).map hexValue)
      | parts => (hexValue parts.flatten, [])

/-- The other lower-case letters with the upper-case letter of `c`. -/
def variants (c : Nat) : List Nat := (variantTable.lookup c).getD []

/-- Write the ASCII capitals of a text in lower case and keep all else. -/
def lowerAscii (s : String) : String :=
  s.map fun c => if c.toNat < 0x80 then Char.ofNat (asciiLower c.toNat) else c

end Neogrammar.Text
