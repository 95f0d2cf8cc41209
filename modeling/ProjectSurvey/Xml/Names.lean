import ProjectSurvey.Text.CharacterBounds
import ProjectSurvey.Text.Classes

/-!
# Names in XML

Which characters may stand in an XML text at all, which may begin a name and which may continue
one. **The classes are those of the fourth edition of XML 1.0**, lists of the basic plane only, so
no character beyond it stands in a name. The colon is not among them: it separates the two parts of
a qualified name.
-/

namespace ProjectSurvey.Xml

/-- Letters and ideographs outside ASCII. -/
def startBounds : List Nat := [
  0xc0, 0xd7, 0xd8, 0xf7, 0xf8, 0x132, 0x134, 0x13f, 0x141, 0x149, 0x14a, 0x17f,
  0x180, 0x1c4, 0x1cd, 0x1f1, 0x1f4, 0x1f6, 0x1fa, 0x218, 0x250, 0x2a9, 0x2bb, 0x2c2,
  0x386, 0x387, 0x388, 0x38b, 0x38c, 0x38d, 0x38e, 0x3a2, 0x3a3, 0x3cf, 0x3d0, 0x3d7,
  0x3da, 0x3db, 0x3dc, 0x3dd, 0x3de, 0x3df, 0x3e0, 0x3e1, 0x3e2, 0x3f4, 0x401, 0x40d,
  0x40e, 0x450, 0x451, 0x45d, 0x45e, 0x482, 0x490, 0x4c5, 0x4c7, 0x4c9, 0x4cb, 0x4cd,
  0x4d0, 0x4ec, 0x4ee, 0x4f6, 0x4f8, 0x4fa, 0x531, 0x557, 0x559, 0x55a, 0x561, 0x587,
  0x5d0, 0x5eb, 0x5f0, 0x5f3, 0x621, 0x63b, 0x641, 0x64b, 0x671, 0x6b8, 0x6ba, 0x6bf,
  0x6c0, 0x6cf, 0x6d0, 0x6d4, 0x6d5, 0x6d6, 0x6e5, 0x6e7, 0x905, 0x93a, 0x93d, 0x93e,
  0x958, 0x962, 0x985, 0x98d, 0x98f, 0x991, 0x993, 0x9a9, 0x9aa, 0x9b1, 0x9b2, 0x9b3,
  0x9b6, 0x9ba, 0x9dc, 0x9de, 0x9df, 0x9e2, 0x9f0, 0x9f2, 0xa05, 0xa0b, 0xa0f, 0xa11,
  0xa13, 0xa29, 0xa2a, 0xa31, 0xa32, 0xa34, 0xa35, 0xa37, 0xa38, 0xa3a, 0xa59, 0xa5d,
  0xa5e, 0xa5f, 0xa72, 0xa75, 0xa85, 0xa8c, 0xa8d, 0xa8e, 0xa8f, 0xa92, 0xa93, 0xaa9,
  0xaaa, 0xab1, 0xab2, 0xab4, 0xab5, 0xaba, 0xabd, 0xabe, 0xae0, 0xae1, 0xb05, 0xb0d,
  0xb0f, 0xb11, 0xb13, 0xb29, 0xb2a, 0xb31, 0xb32, 0xb34, 0xb36, 0xb3a, 0xb3d, 0xb3e,
  0xb5c, 0xb5e, 0xb5f, 0xb62, 0xb85, 0xb8b, 0xb8e, 0xb91, 0xb92, 0xb96, 0xb99, 0xb9b,
  0xb9c, 0xb9d, 0xb9e, 0xba0, 0xba3, 0xba5, 0xba8, 0xbab, 0xbae, 0xbb6, 0xbb7, 0xbba,
  0xc05, 0xc0d, 0xc0e, 0xc11, 0xc12, 0xc29, 0xc2a, 0xc34, 0xc35, 0xc3a, 0xc60, 0xc62,
  0xc85, 0xc8d, 0xc8e, 0xc91, 0xc92, 0xca9, 0xcaa, 0xcb4, 0xcb5, 0xcba, 0xcde, 0xcdf,
  0xce0, 0xce2, 0xd05, 0xd0d, 0xd0e, 0xd11, 0xd12, 0xd29, 0xd2a, 0xd3a, 0xd60, 0xd62,
  0xe01, 0xe2f, 0xe30, 0xe31, 0xe32, 0xe34, 0xe40, 0xe46, 0xe81, 0xe83, 0xe84, 0xe85,
  0xe87, 0xe89, 0xe8a, 0xe8b, 0xe8d, 0xe8e, 0xe94, 0xe98, 0xe99, 0xea0, 0xea1, 0xea4,
  0xea5, 0xea6, 0xea7, 0xea8, 0xeaa, 0xeac, 0xead, 0xeaf, 0xeb0, 0xeb1, 0xeb2, 0xeb4,
  0xebd, 0xebe, 0xec0, 0xec5, 0xf40, 0xf48, 0xf49, 0xf6a, 0x10a0, 0x10c6, 0x10d0, 0x10f7,
  0x1100, 0x1101, 0x1102, 0x1104, 0x1105, 0x1108, 0x1109, 0x110a, 0x110b, 0x110d, 0x110e, 0x1113,
  0x113c, 0x113d, 0x113e, 0x113f, 0x1140, 0x1141, 0x114c, 0x114d, 0x114e, 0x114f, 0x1150, 0x1151,
  0x1154, 0x1156, 0x1159, 0x115a, 0x115f, 0x1162, 0x1163, 0x1164, 0x1165, 0x1166, 0x1167, 0x1168,
  0x1169, 0x116a, 0x116d, 0x116f, 0x1172, 0x1174, 0x1175, 0x1176, 0x119e, 0x119f, 0x11a8, 0x11a9,
  0x11ab, 0x11ac, 0x11ae, 0x11b0, 0x11b7, 0x11b9, 0x11ba, 0x11bb, 0x11bc, 0x11c3, 0x11eb, 0x11ec,
  0x11f0, 0x11f1, 0x11f9, 0x11fa, 0x1e00, 0x1e9c, 0x1ea0, 0x1efa, 0x1f00, 0x1f16, 0x1f18, 0x1f1e,
  0x1f20, 0x1f46, 0x1f48, 0x1f4e, 0x1f50, 0x1f58, 0x1f59, 0x1f5a, 0x1f5b, 0x1f5c, 0x1f5d, 0x1f5e,
  0x1f5f, 0x1f7e, 0x1f80, 0x1fb5, 0x1fb6, 0x1fbd, 0x1fbe, 0x1fbf, 0x1fc2, 0x1fc5, 0x1fc6, 0x1fcd,
  0x1fd0, 0x1fd4, 0x1fd6, 0x1fdc, 0x1fe0, 0x1fed, 0x1ff2, 0x1ff5, 0x1ff6, 0x1ffd, 0x2126, 0x2127,
  0x212a, 0x212c, 0x212e, 0x212f, 0x2180, 0x2183, 0x3007, 0x3008, 0x3021, 0x302a, 0x3041, 0x3095,
  0x30a1, 0x30fb, 0x3105, 0x312d, 0x4e00, 0x9fa6, 0xac00, 0xd7a4]

/-- Combining marks, digits and extenders outside ASCII. -/
def furtherBounds : List Nat := [
  0xb7, 0xb8, 0x2d0, 0x2d2, 0x300, 0x346, 0x360, 0x362, 0x387, 0x388, 0x483, 0x487,
  0x591, 0x5a2, 0x5a3, 0x5ba, 0x5bb, 0x5be, 0x5bf, 0x5c0, 0x5c1, 0x5c3, 0x5c4, 0x5c5,
  0x640, 0x641, 0x64b, 0x653, 0x660, 0x66a, 0x670, 0x671, 0x6d6, 0x6e5, 0x6e7, 0x6e9,
  0x6ea, 0x6ee, 0x6f0, 0x6fa, 0x901, 0x904, 0x93c, 0x93d, 0x93e, 0x94e, 0x951, 0x955,
  0x962, 0x964, 0x966, 0x970, 0x981, 0x984, 0x9bc, 0x9bd, 0x9be, 0x9c5, 0x9c7, 0x9c9,
  0x9cb, 0x9ce, 0x9d7, 0x9d8, 0x9e2, 0x9e4, 0x9e6, 0x9f0, 0xa02, 0xa03, 0xa3c, 0xa3d,
  0xa3e, 0xa43, 0xa47, 0xa49, 0xa4b, 0xa4e, 0xa66, 0xa72, 0xa81, 0xa84, 0xabc, 0xabd,
  0xabe, 0xac6, 0xac7, 0xaca, 0xacb, 0xace, 0xae6, 0xaf0, 0xb01, 0xb04, 0xb3c, 0xb3d,
  0xb3e, 0xb44, 0xb47, 0xb49, 0xb4b, 0xb4e, 0xb56, 0xb58, 0xb66, 0xb70, 0xb82, 0xb84,
  0xbbe, 0xbc3, 0xbc6, 0xbc9, 0xbca, 0xbce, 0xbd7, 0xbd8, 0xbe7, 0xbf0, 0xc01, 0xc04,
  0xc3e, 0xc45, 0xc46, 0xc49, 0xc4a, 0xc4e, 0xc55, 0xc57, 0xc66, 0xc70, 0xc82, 0xc84,
  0xcbe, 0xcc5, 0xcc6, 0xcc9, 0xcca, 0xcce, 0xcd5, 0xcd7, 0xce6, 0xcf0, 0xd02, 0xd04,
  0xd3e, 0xd44, 0xd46, 0xd49, 0xd4a, 0xd4e, 0xd57, 0xd58, 0xd66, 0xd70, 0xe31, 0xe32,
  0xe34, 0xe3b, 0xe46, 0xe4f, 0xe50, 0xe5a, 0xeb1, 0xeb2, 0xeb4, 0xeba, 0xebb, 0xebd,
  0xec6, 0xec7, 0xec8, 0xece, 0xed0, 0xeda, 0xf18, 0xf1a, 0xf20, 0xf2a, 0xf35, 0xf36,
  0xf37, 0xf38, 0xf39, 0xf3a, 0xf3e, 0xf40, 0xf71, 0xf85, 0xf86, 0xf8c, 0xf90, 0xf96,
  0xf97, 0xf98, 0xf99, 0xfae, 0xfb1, 0xfb8, 0xfb9, 0xfba, 0x20d0, 0x20dd, 0x20e1, 0x20e2,
  0x3005, 0x3006, 0x302a, 0x3030, 0x3031, 0x3036, 0x3099, 0x309b, 0x309d, 0x309f, 0x30fc, 0x30ff]

/-- The characters that may begin a name. -/
def isNameStart (c : Char) : Bool :=
  if c.toNat < 128 then Text.isAsciiLetter c || c == '_' else Text.inBounds c.toNat startBounds

/-- The characters that may continue a name. -/
def isNameChar (c : Char) : Bool :=
  if c.toNat < 128 then Text.isAsciiAlnum c || c == '_' || c == '-' || c == '.'
  else Text.inBounds c.toNat startBounds || Text.inBounds c.toNat furtherBounds

/-- The characters of an XML text. -/
def isXmlChar (c : Char) : Bool :=
  let n := c.toNat
  if n < 32 then n == 9 || n == 10 || n == 13 else n != 0xfffe && n != 0xffff

/-- White space between the parts of a tag. -/
def isXmlSpace (c : Char) : Bool := c == ' ' || c == '\t' || c == '\n' || c == '\r'

end ProjectSurvey.Xml
